import Sntp.Machine.OptionWords
import Sntp.Proofs.CommandLine

/-! # Whether the parsing of a command line ends

The loop of `parse_command_line` runs as long as `optind` is less than `argc`, but at the end of the
options `getopt` leaves `optind` at the first word that is not an option, and the loop does not take
its `-1` for an end. It calls `getopt` again, which scans on from there: behind a `--` there may be
more options, but where there are none the call is repeated for ever. Parsing therefore ends exactly
when the words run out with the options, or when an option that is wrong ends the process.
-/

namespace Sntp.ParseLoop

open Machine Getopt

/-- The loop ends exactly when the words of its scanner run out. Each option and each `--` leaves less
to read. -/
private theorem loopEnds_iff (locals : ParseLocals) (scanner : Scanner) :
    LoopEnds .outOfFuel parseOption locals scanner ↔ scanner.runsOut clientOptstring = true := by
  induction size : scanner.size using Nat.strong_induction_on generalizing locals scanner with
  | _ bound ih =>
    by_cases more : scanner.More
    · have tells := tells_getopt clientOptstring more
      cases read : getopt clientOptstring scanner with
      | mk result next =>
        rw [read] at tells
        cases result with
        | option opt =>
          have kept : next.runsOut clientOptstring = scanner.runsOut clientOptstring := tells
          have smaller : next.size < bound := size ▸ size_lt_of_option read
          rw [loopEnds_iff_of_inl (parseOption_of_option more read),
            ih next.size smaller (locals.apply opt) next rfl, kept]
        | unknown optopt =>
          obtain ⟨halt, other, stops⟩ := parseOption_of_unknown locals more read
          exact iff_of_true (loopEnds_of_error stops other) tells
        | finished =>
          have kept : next.runsOut clientOptstring = scanner.runsOut clientOptstring := tells
          rw [loopEnds_iff_of_inl (parseOption_of_finished more read), ← kept]
          rcases spent_or_size_lt_of_finished read with spent | smaller
          · -- Without an option the next call changes nothing, and so does every further one.
            rw [spent.runsOut_iff]
            refine ⟨fun ends left => ?_, fun nothing => loopEnds_of_inr (parseOption_of_not_more nothing)⟩
            exact not_loopEnds_of_fixed (parseOption_of_finished left spent.getopt) ends
          · exact ih next.size (size ▸ smaller) locals next rfl
    · refine iff_of_true (loopEnds_of_inr (parseOption_of_not_more more)) ?_
      rw [Scanner.More, not_or, not_not, not_not] at more
      rw [Scanner.runsOut, more.1, more.2]
      rfl

/-- Parsing ends when its loop does. -/
private theorem ends_iff_loopEnds (arguments : List Text) (cSet : ClientSettings) :
    (∃ fuel, parseCommandLine fuel arguments cSet ≠ .error .outOfFuel) ↔
      LoopEnds .outOfFuel parseOption ⟨cSet, 0, 0⟩ (.start arguments) := by
  apply exists_congr
  intro fuel
  rw [parseCommandLine]
  cases outcome : loop .outOfFuel parseOption fuel ⟨cSet, 0, 0⟩ (Scanner.start arguments) with
  | ok locals scanner =>
    refine iff_of_true ?_ (by simp)
    dsimp only
    split <;> simp
  | error halt scanner => simp

/-- Whatever the settings it starts from, `parse_command_line` returns or ends the process exactly
when the words run out with the options or an option is wrong. -/
theorem parseCommandLine_ends_iff (arguments : List Text) (cSet : ClientSettings) :
    (∃ fuel, parseCommandLine fuel arguments cSet ≠ .error .outOfFuel) ↔
      runsOut clientOptstring false arguments = true := by
  rw [ends_iff_loopEnds, loopEnds_iff, runsOut_start]

-- The call after the `-1` for a `--` reads the option behind it, but a word set aside stays.
example : runsOut clientOptstring false ["--".toList, "-d".toList] = true ∧
    runsOut clientOptstring false ["foo".toList, "--".toList] = false := by decide

/-- A command line with a single word that is no option is parsed for ever. -/
theorem parseCommandLine_word_never_ends :
    ¬ ∃ fuel, parseCommandLine fuel ["foo".toList] (.defaults (.text []) 0) ≠ .error .outOfFuel := by
  rw [ends_iff_loopEnds, loopEnds_iff, runsOut_start]
  decide

end Sntp.ParseLoop
