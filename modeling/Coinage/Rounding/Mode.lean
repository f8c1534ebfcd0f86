/-!
# Rounding modes

The eight ways of turning an exact quotient into an integer. `RoundingMode.roundQuotient` is the one
place of the library where digits are dropped: every rounding of a decimal is a call of it on the
digits kept and the digits dropped, so what is proved of it here holds of all of them.
-/

namespace Coinage

/-- How discarded digits influence the digit that is kept last. -/
inductive RoundingMode where
  /-- Away from zero. -/
  | up
  /-- Towards zero. -/
  | down
  /-- Towards positive infinity. -/
  | ceiling
  /-- Towards negative infinity. -/
  | floor
  /-- To the nearest neighbour, a tie away from zero. -/
  | halfUp
  /-- To the nearest neighbour, a tie towards zero. -/
  | halfDown
  /-- To the nearest neighbour, a tie to the even one. -/
  | halfEven
  /-- No digit but zero may be dropped. -/
  | unnecessary
deriving DecidableEq, Repr

namespace RoundingMode

/-- All modes, in the order in which they are numbered. -/
def all : List RoundingMode :=
  [up, down, ceiling, floor, halfUp, halfDown, halfEven, unnecessary]

def name : RoundingMode → String
  | up => "UP"
  | down => "DOWN"
  | ceiling => "CEILING"
  | floor => "FLOOR"
  | halfUp => "HALF_UP"
  | halfDown => "HALF_DOWN"
  | halfEven => "HALF_EVEN"
  | unnecessary => "UNNECESSARY"

instance : ToString RoundingMode := ⟨name⟩

/-- The mode of a given name, letter for letter. -/
def ofName? (s : String) : Option RoundingMode :=
  all.find? fun mode => mode.name == s

/-- The letters of a name without its separators, ASCII letters in upper case. -/
def bareLetters (s : String) : List Char :=
  (s.toList.filter fun c => c != '_' && c != '-').map Char.toUpper

/-- The mode that a text spells, whatever its case and its separators. -/
def ofText? (s : String) : Option RoundingMode :=
  all.find? fun mode => bareLetters mode.name == bareLetters s

def roundsInexact (mode : RoundingMode) : Bool :=
  mode != unnecessary

/-! ### Rounding a quotient -/

/-- Whether a magnitude `q` with `r` of `d` parts left over moves one step away from zero. -/
def stepsAway (mode : RoundingMode) (negative : Bool) (q r d : Nat) : Bool :=
  match mode with
  | up => decide (0 < r)
  | down => false
  | ceiling => !negative && decide (0 < r)
  | floor => negative && decide (0 < r)
  | halfUp => decide (d ≤ 2 * r)
  | halfDown => decide (d < 2 * r)
  | halfEven => decide (d < 2 * r) || (decide (2 * r = d) && decide (q % 2 = 1))
  | unnecessary => false

/-- The magnitude `n / d` rounded to an integer, for a value of the given sign. -/
def roundMagnitude (mode : RoundingMode) (negative : Bool) (n d : Nat) : Nat :=
  if mode.stepsAway negative (n / d) (n % d) d then n / d + 1 else n / d

/-- The quotient `n / d` rounded to an integer. -/
def roundQuotient (mode : RoundingMode) (n : Int) (d : Nat) : Int :=
  n.sign * mode.roundMagnitude (decide (n < 0)) n.natAbs d

/-- The rounded magnitude is one of the two integers around the quotient. -/
theorem roundMagnitude_bounds (mode : RoundingMode) (negative : Bool) (n d : Nat) :
    n / d ≤ mode.roundMagnitude negative n d ∧ mode.roundMagnitude negative n d ≤ n / d + 1 := by
  unfold roundMagnitude
  split <;> omega

/-- Rounding changes no sign: the magnitude of the result is the rounded magnitude. -/
theorem natAbs_roundQuotient_le (mode : RoundingMode) (n : Int) (d : Nat) :
    (mode.roundQuotient n d).natAbs ≤ n.natAbs / d + 1 := by
  have h := (mode.roundMagnitude_bounds (decide (n < 0)) n.natAbs d).2
  unfold roundQuotient
  rw [Int.natAbs_mul, Int.natAbs_natCast]
  have hs : n.sign.natAbs ≤ 1 := by
    rcases Int.lt_trichotomy n 0 with hn | hn | hn
    · simp [Int.sign_eq_neg_one_of_neg hn]
    · simp [hn]
    · simp [Int.sign_eq_one_of_pos hn]
  calc n.sign.natAbs * mode.roundMagnitude (decide (n < 0)) n.natAbs d
      ≤ 1 * mode.roundMagnitude (decide (n < 0)) n.natAbs d := Nat.mul_le_mul_right _ hs
    _ ≤ n.natAbs / d + 1 := by omega

end RoundingMode

end Coinage
