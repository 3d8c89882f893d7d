import Sntp.Math.Gregorian
import Sntp.Model.Address
import Sntp.Model.Time
import Sntp.ToMathlib.Decimal

/-! # The printed time

`convert_epoch_time_to_human_readable` prints a time in the calendar of the host's zone, which
`print_server_results` labels `(+0000)`. The rules of a zone are its offset from UTC at every time.
-/

namespace Sntp

open Decimal

/-- The fields of `struct tm` that are printed. -/
structure Tm where
  tmSec : ℤ
  tmMin : ℤ
  tmHour : ℤ
  tmMday : ℤ
  tmMon : ℤ
  tmYear : ℤ
deriving DecidableEq, Repr

/-- The offset of a zone in seconds, at a time in seconds since the epoch. -/
abbrev Zone := ℤ → ℤ

/-- The calendar fields of a number of seconds since the epoch. -/
def Tm.ofSeconds (seconds : ℤ) : Tm :=
  let date := Gregorian.Date.ofDayNumber (seconds / 86400)
  let second := (seconds % 86400).toNat
  { tmSec := (second % 60 : ℕ)
    tmMin := (second / 60 % 60 : ℕ)
    tmHour := (second / 3600 : ℕ)
    tmMday := date.day
    tmMon := date.month - 1
    tmYear := date.year - 1900 }

/-- `localtime`. -/
def localtime (zone : Zone) (time : ℤ) : Tm := .ofSeconds (time + zone time)

/-- The text of a conversion of `strftime`, for the conversions that the client uses. -/
def Tm.conversion (ts : Tm) : Char → Text
  | 'Y' => zeroPadded 4 (ts.tmYear + 1900)
  | 'm' => zeroPadded 2 (ts.tmMon + 1)
  | 'd' => zeroPadded 2 ts.tmMday
  | 'H' => zeroPadded 2 ts.tmHour
  | 'M' => zeroPadded 2 ts.tmMin
  | 'S' => zeroPadded 2 ts.tmSec
  | _ => []

/-- `strftime`. -/
def strftime (ts : Tm) : Text → Text
  | '%' :: c :: format => ts.conversion c ++ strftime ts format
  | c :: format => c :: strftime ts format
  | [] => []

/-- `convert_epoch_time_to_human_readable`: the fields of the local time, and `%06li`. -/
def convertEpochTimeToHumanReadable (zone : Zone) (epochTime : Timeval) : Text :=
  strftime (localtime zone epochTime.tvSec) "%Y-%m-%d %H:%M:%S".toList ++
    '.' :: zeroPadded 6 epochTime.tvUsec

/-- The time that `print_server_results` prints, with its label. -/
def printedTime (zone : Zone) (transmitTime : Timeval) : Text :=
  convertEpochTimeToHumanReadable zone transmitTime ++ " (+0000)".toList

end Sntp
