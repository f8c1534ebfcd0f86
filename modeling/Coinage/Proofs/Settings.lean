import Coinage.Proofs.Outcome
import Coinage.Settings
/-!
# The strict and the lenient loader

Both loaders run one routine over the variables. Whether a variable rejects its text does not depend on what has been
set before it (`rejection?`), so the strict loader stops at the first rejection there is, and the lenient loader takes
up what is not rejected (`passingOver`). Everything said of the two is read off `loadLenient_eq` and `loadStrict_eq`.
-/

namespace Coinage

namespace Settings

variable {lookup : String → Option String} {s t : Settings} {v : Variable} {raw : String} {r : Rejection}

namespace Variable

/-- Whether a text is a value of the variable. -/
def parses : Variable → String → Bool
  | precision, raw => (parsePrecision raw).isOk
  | rounding, raw | currencyRounding, raw => (parseMode raw).isOk
  | logFormat, raw => (parseLogFormat raw).isOk

theorem mem_all (v : Variable) : v ∈ all := by
  cases v <;> decide

theorem key_injective {v w : Variable} (h : v.key = w.key) : v = w := by
  cases v <;> cases w <;> first | rfl | exact absurd h (by decide)

theorem key_ne_logLevelKey (v : Variable) : v.key ≠ logLevelKey := by
  cases v <;> decide

end Variable

/-- The value of a text that is given and parses. -/
def value? {α : Type} (parse : String → Except SettingFault α) (text : Option String) : Option α :=
  text.bind fun raw => (parse raw).toOption

/-- The settings that texts give where those that do not parse are passed over. -/
def passingOver (lookup : String → Option String) : Settings where
  precision := (value? parsePrecision (lookup Variable.precision.key)).getD MathContext.decimal64.precision
  rounding := (value? parseMode (lookup Variable.rounding.key)).getD MathContext.decimal64.mode
  currencyRounding := (value? parseMode (lookup Variable.currencyRounding.key)).getD .halfUp
  logFormat := (value? parseLogFormat (lookup Variable.logFormat.key)).getD .text
  logLevel := (lookup logLevelKey).getD "info"

/-- Whether a variable is not given, or given a text that parses. -/
def Accepted (lookup : String → Option String) (v : Variable) : Prop :=
  ∀ raw, lookup v.key = some raw → v.parses raw = true

/-- The lookup without the variables whose text does not parse. -/
def withoutUnparseable (lookup : String → Option String) : String → Option String := fun key =>
  (lookup key).filter fun raw => Variable.all.all fun v => v.key != key || v.parses raw

/-! ### One variable -/

/-- The rejection of a text that is given and does not parse. -/
def rejection? (lookup : String → Option String) (v : Variable) : Option Rejection :=
  match lookup v.key with
  | none => none
  | some raw =>
    match v.assign raw {} with
    | .ok _ => none
    | .error fault => some ⟨v, raw, fault⟩

/-- The settings with the text of one variable taken up, if it is given and parses. -/
def takeUp (lookup : String → Option String) (s : Settings) (v : Variable) : Settings :=
  match lookup v.key with
  | none => s
  | some raw => (v.assign raw s).toOption.getD s

theorem isOk_assign (v : Variable) (raw : String) (s : Settings) : (v.assign raw s).isOk = v.parses raw := by
  cases v <;> exact isOk_map _ _

/-- What has been set before makes no difference to what does not parse. -/
theorem assign_eq_error {fault : SettingFault} (h : v.assign raw s = .error fault) (t : Settings) :
    v.assign raw t = .error fault := by
  cases v <;> exact map_eq_error.2 (map_eq_error.1 h)

theorem rejection?_eq_some_iff :
    rejection? lookup v = some r ↔
      v = r.setting ∧ lookup r.setting.key = some r.raw ∧ r.setting.assign r.raw {} = .error r.fault := by
  obtain ⟨w, raw, fault⟩ := r
  unfold rejection?
  constructor
  · intro h
    split at h
    · cases h
    · split at h
      · cases h
      · cases h
        exact ⟨rfl, by assumption, by assumption⟩
  · rintro ⟨rfl, hraw, hfault⟩
    simp only [hraw, hfault]

theorem rejection?_eq_none_iff : rejection? lookup v = none ↔ Accepted lookup v := by
  unfold rejection? Accepted
  cases lookup v.key with
  | none => simp
  | some raw =>
    have hok := isOk_assign v raw {}
    cases hassign : v.assign raw {} <;> rw [hassign] at hok <;> simp [hassign, ← hok, Except.isOk, Except.toBool]

/-- The routine run on one variable: its text is taken up, or handed on where it is rejected. -/
theorem run_loadVariable (onRejection : Rejection → Except Rejection Unit) (lookup : String → Option String) (v : Variable)
    (s : Settings) :
    (loadVariable onRejection lookup v).run.run s =
      match rejection? lookup v with
      | none => (.ok (), takeUp lookup s v)
      | some r => (onRejection r, s) := by
  unfold loadVariable rejection? takeUp
  cases lookup v.key with
  | none => rfl
  | some raw =>
    show ExceptT.run (match v.assign raw s with
      | .ok s => set s
      | .error fault => liftExcept (onRejection ⟨v, raw, fault⟩) : Loading Unit) s = _
    -- the routine sets the variable in what has been set so far, `rejection?` in the usual settings
    cases hassign : v.assign raw s with
    | ok next =>
      cases hfirst : v.assign raw {} with
      | ok first =>
        simp only [hassign, hfirst]
        rfl
      | error fault => cases hassign.symm.trans (assign_eq_error hfirst s)
    | error fault =>
      simp only [assign_eq_error hassign {}]
      unfold liftExcept
      cases onRejection ⟨v, raw, fault⟩ <;> rfl

theorem takeUp_of_rejection (h : rejection? lookup v = some r) (s : Settings) : takeUp lookup s v = s := by
  obtain ⟨rfl, hraw, hfault⟩ := rejection?_eq_some_iff.1 h
  unfold takeUp
  rw [hraw]
  simp only [assign_eq_error hfault s]
  rfl

/-! ### All variables -/

/-- The routine run on one variable after the other, as long as none ends it. -/
theorem run_forM_cons (onRejection : Rejection → Except Rejection Unit) (v : Variable) (rest : List Variable) :
    ((v :: rest).forM (loadVariable onRejection lookup)).run.run s =
      match (loadVariable onRejection lookup v).run.run s with
      | (.ok (), next) => (rest.forM (loadVariable onRejection lookup)).run.run next
      | (.error r, last) => (.error r, last) := by
  show (loadVariable onRejection lookup v >>= fun _ => rest.forM (loadVariable onRejection lookup)).run.run s = _
  rw [ExceptT.run_bind, StateT.run_bind]
  obtain ⟨outcome, next⟩ := (loadVariable onRejection lookup v).run.run s
  cases outcome <;> rfl

theorem run_forM_lenient (lookup : String → Option String) (vs : List Variable) (s : Settings) :
    (vs.forM (loadVariable (fun _ => .ok ()) lookup)).run.run s = (.ok (), vs.foldl (takeUp lookup) s) := by
  induction vs generalizing s with
  | nil => rfl
  | cons v rest ih =>
    rw [run_forM_cons, run_loadVariable, List.foldl_cons]
    cases hv : rejection? lookup v with
    | none => exact ih (takeUp lookup s v)
    | some r =>
      rw [takeUp_of_rejection hv]
      exact ih s

theorem run_forM_strict (lookup : String → Option String) (vs : List Variable) (s : Settings) :
    ∃ last, (vs.forM (loadVariable .error lookup)).run.run s =
      match vs.findSome? (rejection? lookup) with
      | none => (.ok (), vs.foldl (takeUp lookup) s)
      | some r => (.error r, last) := by
  induction vs generalizing s with
  | nil => exact ⟨s, rfl⟩
  | cons v rest ih =>
    rw [run_forM_cons, run_loadVariable, List.foldl_cons]
    cases hv : rejection? lookup v with
    | none =>
      rw [List.findSome?_cons_of_isNone (Option.isNone_iff_eq_none.2 hv)]
      exact ih (takeUp lookup s v)
    | some r =>
      rw [List.findSome?_cons_of_isSome (Option.isSome_of_eq_some hv), hv]
      exact ⟨s, rfl⟩

/-- A text that is given and parses is put into its field. -/
theorem takeUp_eq {α : Type} (lookup : String → Option String) (v : Variable) (parse : String → Except SettingFault α)
    (field : Settings → α) (put : Settings → α → Settings) (hassign : ∀ raw s, v.assign raw s = (parse raw).map (put s))
    (hput : ∀ s, put s (field s) = s) (s : Settings) :
    takeUp lookup s v = put s ((value? parse (lookup v.key)).getD (field s)) := by
  unfold takeUp value?
  cases lookup v.key with
  | none => exact (hput s).symm
  | some raw =>
    simp only [hassign, Option.bind_some]
    cases parse raw with
    | ok a => rfl
    | error fault => exact (hput s).symm

theorem assignLogLevel_foldl_takeUp (lookup : String → Option String) :
    assignLogLevel lookup (Variable.all.foldl (takeUp lookup) {}) = passingOver lookup := by
  have hprecision := takeUp_eq lookup .precision parsePrecision precision (fun s n => { s with precision := n })
    (fun _ _ => rfl) fun _ => rfl
  have hrounding := takeUp_eq lookup .rounding parseMode rounding (fun s mode => { s with rounding := mode })
    (fun _ _ => rfl) fun _ => rfl
  have hcurrency := takeUp_eq lookup .currencyRounding parseMode currencyRounding
    (fun s mode => { s with currencyRounding := mode }) (fun _ _ => rfl) fun _ => rfl
  have hformat := takeUp_eq lookup .logFormat parseLogFormat logFormat (fun s format => { s with logFormat := format })
    (fun _ _ => rfl) fun _ => rfl
  simp only [Variable.all, List.foldl_cons, List.foldl_nil, hprecision, hrounding, hcurrency, hformat]
  unfold assignLogLevel passingOver
  cases lookup logLevelKey <;> rfl

/-! ### The loaders -/

theorem run_load (onRejection : Rejection → Except Rejection Unit) (lookup : String → Option String) (s : Settings) :
    (load onRejection lookup).run.run s =
      match (Variable.all.forM (loadVariable onRejection lookup)).run.run s with
      | (.ok (), last) => (.ok (), assignLogLevel lookup last)
      | (.error r, last) => (.error r, last) := by
  show (Variable.all.forM (loadVariable onRejection lookup) >>= fun _ => modify (assignLogLevel lookup)).run.run s = _
  rw [ExceptT.run_bind, StateT.run_bind]
  obtain ⟨outcome, last⟩ := (Variable.all.forM (loadVariable onRejection lookup)).run.run s
  cases outcome <;> rfl

theorem loadLenient_eq (lookup : String → Option String) : loadLenient lookup = passingOver lookup := by
  rw [loadLenient, run_load, run_forM_lenient]
  exact assignLogLevel_foldl_takeUp lookup

theorem loadStrict_eq (lookup : String → Option String) :
    loadStrict lookup =
      match Variable.all.findSome? (rejection? lookup) with
      | none => .ok (passingOver lookup)
      | some r => .error r := by
  obtain ⟨last, hrun⟩ := run_forM_strict lookup Variable.all {}
  rw [loadStrict, run_load, hrun]
  cases Variable.all.findSome? (rejection? lookup) with
  | none => exact congrArg Except.ok (assignLogLevel_foldl_takeUp lookup)
  | some r => rfl

theorem loadStrict_eq_ok_iff : loadStrict lookup = .ok s ↔ (∀ v, Accepted lookup v) ∧ passingOver lookup = s := by
  have hnone : Variable.all.findSome? (rejection? lookup) = none ↔ ∀ v, Accepted lookup v := by
    rw [List.findSome?_eq_none_iff]
    exact ⟨fun h v => rejection?_eq_none_iff.1 (h v v.mem_all), fun h v _ => rejection?_eq_none_iff.2 (h v)⟩
  rw [loadStrict_eq, ← hnone]
  cases Variable.all.findSome? (rejection? lookup) <;> simp

/-- The strict loader stops at the first variable whose text does not parse. -/
theorem loadStrict_eq_error_iff :
    loadStrict lookup = .error r ↔
      lookup r.setting.key = some r.raw ∧ r.setting.assign r.raw {} = .error r.fault ∧
        ∃ before after, Variable.all = before ++ r.setting :: after ∧ ∀ v ∈ before, Accepted lookup v := by
  have hfound : loadStrict lookup = .error r ↔ Variable.all.findSome? (rejection? lookup) = some r := by
    rw [loadStrict_eq]
    cases Variable.all.findSome? (rejection? lookup) <;> simp
  rw [hfound, List.findSome?_eq_some_iff]
  simp only [rejection?_eq_some_iff, rejection?_eq_none_iff]
  constructor
  · rintro ⟨before, v, after, hsplit, ⟨rfl, hraw, hfault⟩, hbefore⟩
    exact ⟨hraw, hfault, before, after, hsplit, hbefore⟩
  · rintro ⟨hraw, hfault, before, after, hsplit, hbefore⟩
    exact ⟨before, r.setting, after, hsplit, ⟨rfl, hraw, hfault⟩, hbefore⟩

/-! ### Lookups without what does not parse -/

theorem withoutUnparseable_key (lookup : String → Option String) (v : Variable) :
    withoutUnparseable lookup v.key = (lookup v.key).filter v.parses := by
  have hparses : ∀ raw, (Variable.all.all fun w => w.key != v.key || w.parses raw) = v.parses raw := by
    intro raw
    rw [Bool.eq_iff_iff, List.all_eq_true]
    constructor
    · intro h
      simpa using h v v.mem_all
    · intro h w _
      by_cases hkey : w.key = v.key
      · rw [Variable.key_injective hkey, h, Bool.or_true]
      · simp [hkey]
  rw [withoutUnparseable, funext hparses]

theorem withoutUnparseable_of_ne {key : String} (h : ∀ v : Variable, v.key ≠ key) (lookup : String → Option String) :
    withoutUnparseable lookup key = lookup key := by
  have hall : ∀ raw, (Variable.all.all fun v => v.key != key || v.parses raw) = true := by
    intro raw
    rw [List.all_eq_true]
    intro v _
    simp [h v]
  rw [withoutUnparseable, funext hall]
  cases lookup key <;> rfl

theorem accepted_withoutUnparseable (lookup : String → Option String) (v : Variable) :
    Accepted (withoutUnparseable lookup) v := by
  intro raw hraw
  rw [withoutUnparseable_key, Option.filter_eq_some_iff] at hraw
  exact hraw.2

theorem value?_filter {α : Type} (p : String → Bool) (parse : String → Except SettingFault α)
    (h : ∀ raw, p raw = (parse raw).isOk) (text : Option String) : value? parse (text.filter p) = value? parse text := by
  cases text with
  | none => rfl
  | some raw =>
    rw [Option.filter_some, h]
    cases hparse : parse raw with
    | ok a => rfl
    | error fault => simp [value?, hparse, Except.isOk, Except.toBool, Except.toOption]

theorem passingOver_withoutUnparseable (lookup : String → Option String) :
    passingOver (withoutUnparseable lookup) = passingOver lookup := by
  unfold passingOver
  simp only [withoutUnparseable_key, withoutUnparseable_of_ne Variable.key_ne_logLevelKey]
  rw [value?_filter Variable.precision.parses parsePrecision fun _ => rfl,
    value?_filter Variable.rounding.parses parseMode fun _ => rfl,
    value?_filter Variable.currencyRounding.parses parseMode fun _ => rfl,
    value?_filter Variable.logFormat.parses parseLogFormat fun _ => rfl]

/-- The strict loader succeeds just where each variable is unset or parses, and then the lenient one gives the same
settings. Else it names the first variable that does not parse, in the order in which they are read, with its text. The
lenient loader gives whatever the strict one would without the variables that do not parse: each setting whose text
parses has that value, and the others their usual one. -/
theorem loaders_agree (lookup : String → Option String) :
    ((∃ s, loadStrict lookup = .ok s) ↔ ∀ v, Accepted lookup v) ∧
    (∀ s, loadStrict lookup = .ok s → loadLenient lookup = s) ∧
    (∀ r, loadStrict lookup = .error r ↔
      lookup r.setting.key = some r.raw ∧ r.setting.assign r.raw {} = .error r.fault ∧
        ∃ before after, [.precision, .rounding, .currencyRounding, .logFormat] = before ++ r.setting :: after ∧
          ∀ v ∈ before, Accepted lookup v) ∧
    (∀ r : Rejection, r.message =
      "Invalid value '" ++ r.raw ++ "' for " ++ r.setting.key ++ ": " ++ r.fault.message) ∧
    loadStrict (withoutUnparseable lookup) = .ok (loadLenient lookup) ∧
    loadLenient lookup = passingOver lookup := by
  refine ⟨?_, fun s h => ?_, fun r => loadStrict_eq_error_iff, fun r => ?_, ?_, loadLenient_eq lookup⟩
  · simp only [loadStrict_eq_ok_iff, exists_and_left, exists_eq', and_true]
  · rw [loadLenient_eq, (loadStrict_eq_ok_iff.1 h).2]
  · rfl
  · rw [loadStrict_eq_ok_iff, passingOver_withoutUnparseable, loadLenient_eq]
    exact ⟨accepted_withoutUnparseable lookup, rfl⟩

/-- Variables of which the first and the last that are parsed have texts that mean nothing. -/
def misprinted : String → Option String := fun key =>
  [(Variable.precision.key, "lots"), (Variable.rounding.key, "down"), (Variable.logFormat.key, "xml"),
    (logLevelKey, "debug")].lookup key

/-- The strict loader names the first of them, the lenient one takes up what stands between and behind them. -/
theorem loaders_agree_misprinted :
    loadStrict misprinted = .error ⟨.precision, "lots", .notADigit⟩ ∧
    loadStrict (withoutUnparseable misprinted) = .ok { rounding := .down, logLevel := "debug" } ∧
    loadLenient (withoutUnparseable misprinted) = { rounding := .down, logLevel := "debug" } ∧
    loadLenient misprinted = { rounding := .down, logLevel := "debug" } := by
  obtain ⟨-, -, herror, -, hwithout, hlenient⟩ := loaders_agree misprinted
  have htaken : passingOver misprinted = { rounding := .down, logLevel := "debug" } := by decide
  rw [hlenient, htaken] at hwithout
  have hfirst : loadStrict misprinted = .error ⟨.precision, "lots", .notADigit⟩ :=
    (herror _).2 ⟨rfl, rfl, [], _, rfl, by simp⟩
  exact ⟨hfirst, hwithout, (loaders_agree (withoutUnparseable misprinted)).2.1 _ hwithout, hlenient.trans htaken⟩

end Settings

end Coinage
