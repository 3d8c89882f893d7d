import Sntp.Model.UnicastMode
import Sntp.Model.Manycast

/-! # The client

`main`, from the point where its settings are known. Its totals and the table of servers are not
initialised by the source, so their first values are arguments here.
-/

namespace Sntp

open Machine

/-- The locals that the repeat loop of `main` accumulates. -/
structure MainLocals where
  sCounter : ℤ
  offsetTotal : ℚ
  errorBoundTotal : ℚ
deriving DecidableEq, Repr

/-- The line that `print_error_message` prints. -/
def printErrorMessage (errorCode : ℤ) : Text :=
  match errorCode with
  | 2 => "error - server not found\n".toList
  | 3 => "error - failed to create socket\n".toList
  | 4 => "error - max number of retries hit\n".toList
  | 5 => "error - sending manycast request packet\n".toList
  | 6 => "error - no servers found from manycast query\n".toList
  | 7 => "error - cant set ttl for manycast request\n".toList
  | 8 => "error - cant set recv timeout for socket\n".toList
  | _ => "error - unknown(code=".toList ++ (toString errorCode).toList ++ ")\n".toList

/-- The discovery part of `main`: the settings it leaves, with the server to query. -/
def chooseServer (env : Env) (fuel : ℕ) (cSet : ClientSettings) (ntpServers : ℕ → CharPtr) :
    ClientM ClientSettings := do
  if cSet.manycastEnabled ≠ 0 then
    let (exitCode, table) ← discoverUnicastServersWithManycast env cSet fuel ntpServers
    if exitCode = 0 then
      let serverHost := table.ntpServers 0
      record (.usingServer (← readText serverHost))
      return { cSet with serverHost := serverHost }
    else
      record (.errorMessage exitCode)
      throw (.exit 1)
  else return cSet

/-- The condition of the busy wait of `main`, which the first sample skips. -/
def waitPoll (env : Env) (cSet : ClientSettings) (counter : ℤ) (_ : Unit) :
    ClientM (Unit ⊕ Unit) := do
  if counter ≠ 0 then
    if (← elapsedTime env (← get).vars.pollTimer) ≤ cSet.pollWait then return .inl ()
    else return .inr ()
  else return .inr ()

/-- `unicast_mode` with the error message `main` prints when it fails. -/
def takeSample (env : Env) (cSet : ClientSettings) (fuel : ℕ) : ClientM ℤ := do
  let exitCode ← unicastMode env cSet fuel
  if exitCode ≠ 0 then record (.errorMessage exitCode)
  return exitCode

/-- The body of the repeat loop, at the value of `counter`. -/
def repeatSample (env : Env) (cSet : ClientSettings) (fuel : ℕ) :
    ℤ × MainLocals → ClientM ((ℤ × MainLocals) ⊕ MainLocals)
  | (counter, totals) => do
    if counter < cSet.timedRepeatUpdatesLimit then
      loop .outOfFuel (waitPoll env cSet counter) fuel ()
      let exitCode ← takeSample env cSet fuel
      if exitCode ≠ 0 then return .inl (counter + 1, totals)
      else
        let vars := (← get).vars
        return .inl (counter + 1,
          { sCounter := totals.sCounter + 1
            offsetTotal := totals.offsetTotal + vars.offset
            errorBoundTotal := totals.errorBoundTotal + vars.errorBound })
    else return .inr totals

/-- The statistics `main` ends with. -/
def MainLocals.statistics (totals : MainLocals) : Event :=
  if 0 < totals.sCounter then
    .statistics (totals.offsetTotal / totals.sCounter) (totals.errorBoundTotal / totals.sCounter)
  else .noSamples

/-- `main` after `get_client_settings`. -/
def clientMain (env : Env) (fuel : ℕ) (cSet : ClientSettings) (ntpServers : ℕ → CharPtr)
    (offsetTotal errorBoundTotal : ℚ) : ClientM ℤ := do
  let cSet ← chooseServer env fuel cSet ntpServers
  if cSet.timedRepeatUpdatesEnabled ≠ 1 then
    let _ ← takeSample env cSet fuel
    return 0
  else
    let totals ← loop .outOfFuel (repeatSample env cSet fuel) fuel
      (0, { sCounter := 0, offsetTotal := offsetTotal, errorBoundTotal := errorBoundTotal })
    record totals.statistics
    return 0

end Sntp
