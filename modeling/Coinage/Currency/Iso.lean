import Coinage.Currency.Basic
/-!
# Currencies of ISO 4217

The currencies that are known without being registered, with their numbers and the digits of their
minor units.
-/

namespace Coinage

namespace Currency

/-- Code, number and fraction digits of each known currency, in the order of the codes. -/
def isoTable : List (String × Nat × Nat) :=
  [("AED", 784, 2), ("ARS", 32, 2), ("AUD", 36, 2), ("BGN", 975, 2), ("BHD", 48, 3), ("BRL", 986, 2),
   ("CAD", 124, 2), ("CHF", 756, 2), ("CLP", 152, 0), ("CNY", 156, 2), ("COP", 170, 2),
   ("CZK", 203, 2), ("DKK", 208, 2), ("EGP", 818, 2), ("EUR", 978, 2), ("GBP", 826, 2),
   ("HKD", 344, 2), ("HUF", 348, 2), ("IDR", 360, 2), ("ILS", 376, 2), ("INR", 356, 2),
   ("ISK", 352, 0), ("JOD", 400, 3), ("JPY", 392, 0), ("KRW", 410, 0), ("KWD", 414, 3),
   ("MXN", 484, 2), ("MYR", 458, 2), ("NGN", 566, 2), ("NOK", 578, 2), ("NZD", 554, 2),
   ("OMR", 512, 3), ("PHP", 608, 2), ("PLN", 985, 2), ("RON", 946, 2), ("SAR", 682, 2),
   ("SEK", 752, 2), ("SGD", 702, 2), ("THB", 764, 2), ("TND", 788, 3), ("TRY", 949, 2),
   ("TWD", 901, 2), ("UAH", 980, 2), ("USD", 840, 2), ("VND", 704, 0), ("XAU", 959, 0),
   ("XXX", 999, 0), ("ZAR", 710, 2)]

/-- The known currencies. -/
def iso : List Currency :=
  isoTable.filterMap fun (code, number, digits) => make? code (some number) digits

end Currency

end Coinage
