import IPStat.Lib.Run

namespace IPStat

/-- log_mutex, and the lines written to the log. -/
structure LogState where
  locked : Bool
  file : List (List UInt8)
  deriving DecidableEq, Repr

/-- A call of print_log: whether fopen succeeds, and the date, level and message as formatted. -/
structure LogCall where
  opened : Bool
  line : List UInt8
  deriving DecidableEq, Repr

/-- What stands in the log for a byte of the line. -/
def logged (p : UInt8) : UInt8 :=
  if p = 13 ∨ p = 10 then 32
  else if p < 32 ∨ 128 ≤ p ∧ p ≤ 160 then 63
  else p

/-- vlog; `none` is the wait for a mutex that no one will release. -/
def vlog (s : LogState) (call : LogCall) : Option (LogState × Bool) :=
  if s.locked then none
  else if call.opened then
    some (⟨false, s.file ++ [call.line.map logged ++ [10]]⟩, true)
  else some (⟨true, s.file⟩, false)

def printLog (s : LogState) (call : LogCall) : Option LogState := (vlog s call).map Prod.fst

/-- Calls all return, and leave the mutex free, exactly when the log opens for each of them. -/
theorem print_log_releases_iff (s : LogState) (calls : List LogCall) (hs : s.locked = false) :
    ((∃ u, Run.exec printLog s calls = some u) ∧
        Run.Always printLog (fun s => s.locked = false) s calls) ↔
      ∀ call ∈ calls, call.opened = true := by
  induction calls generalizing s with
  | nil => simp [Run.Always, hs]
  | cons call calls ih =>
    rw [List.forall_mem_cons]
    cases hopen : call.opened with
    | true =>
      have hstep : printLog s call =
          some ⟨false, s.file ++ [call.line.map logged ++ [10]]⟩ := by
        simp [printLog, vlog, hs, hopen]
      have hrest := ih ⟨false, s.file ++ [call.line.map logged ++ [10]]⟩ rfl
      simp only [Run.exec_cons call calls hstep, Run.Always, hstep, Option.some.injEq,
        forall_eq', hs, true_and]
      exact hrest
    | false =>
      have hstep : printLog s call = some ⟨true, s.file⟩ := by
        simp [printLog, vlog, hs, hopen]
      refine iff_of_false ?_ (by simp)
      rintro ⟨-, halways⟩
      have hlocked := halways.2 _ hstep
      cases calls with
      | nil => cases hlocked
      | cons c cs => cases hlocked.1

end IPStat
