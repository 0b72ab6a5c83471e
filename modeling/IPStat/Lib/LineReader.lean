import IPStat.Lib.Run
import Mathlib.Data.List.Basic

namespace LineReader

variable {α : Type*}

/-- Cut a stream into records, the first of which has begun with `part`; `full` says whether a
record is complete. -/
def cut (full : List α → Bool) : List α → List α → List (List α) × List α
  | part, [] => ([], part)
  | part, a :: s =>
    if full (part ++ [a]) then ((part ++ [a]) :: (cut full [] s).1, (cut full [] s).2)
    else cut full (part ++ [a]) s

/-- The last record of a stream, which its end may have cut short. -/
def lastRecord (part : List α) : List (List α) := if part.isEmpty then [] else [part]

/-- The records of a whole stream. -/
def recordsOf (full : List α → Bool) (s : List α) : List (List α) :=
  (cut full [] s).1 ++ lastRecord (cut full [] s).2

/-- What was read of the stream while it was open, and what went with its buffer. -/
structure Session (α : Type*) where
  read : List α
  lost : List α

/-- A pipe and its reader: all that was written, what of it the pipe holds, the block that is
buffered, the call under way with what it has put into its record, the records of this session. -/
structure Reader (α : Type*) where
  written : List α
  pipe : List α
  writers : Bool
  past : List (Session α)
  opened : Bool
  buffer : List α
  call : Option (List α)
  records : List (List α)

def start : Reader α := ⟨[], [], false, [], false, [], none, []⟩

inductive Event (α : Type*) where
  | write (s : List α)
  | writers (present : Bool)
  | reopen
  | call
  | take
  | fill
  | eof
  | broken

/-- End the session. -/
def Reader.close (r : Reader α) (last : List (List α)) (session : Session α) :
    Reader α × List (List α) :=
  ({ r with
    past := r.past ++ [session]
    opened := false
    buffer := []
    call := none
    records := [] }, last)

/-- One step of the writers, or of a reader that waits for the pipe, not for its buffer, before it
begins a call; with the record that the call returns. -/
def Reader.step (full : List α → Bool) (block : Nat) (r : Reader α) :
    Event α → Option (Reader α × List (List α))
  | .write s =>
    if r.writers then some ({ r with written := r.written ++ s, pipe := r.pipe ++ s }, [])
    else none
  | .writers present => some ({ r with writers := present }, [])
  | .reopen => if !r.opened && r.writers then some ({ r with opened := true }, []) else none
  | .call =>
    if r.opened && r.call.isNone && (!r.pipe.isEmpty || !r.writers) then
      some ({ r with call := some [] }, [])
    else none
  | .take =>
    match r.call, r.buffer with
    | some part, a :: buffer =>
      if full (part ++ [a]) then
        some ({ r with buffer := buffer, call := none, records := r.records ++ [part ++ [a]] },
          [part ++ [a]])
      else some ({ r with buffer := buffer, call := some (part ++ [a]) }, [])
    | _, _ => none
  | .fill =>
    match r.call, r.buffer, r.pipe with
    | some _, [], a :: pipe =>
      some ({ r with buffer := (a :: pipe).take block, pipe := (a :: pipe).drop block }, [])
    | _, _, _ => none
  | .eof =>
    match r.call, r.buffer, r.pipe, r.writers with
    | some part, [], [], false =>
      some (r.close (lastRecord part) ⟨r.records.flatten ++ part, []⟩)
    | _, _, _, _ => none
  | .broken =>
    if r.opened && r.call.isNone then some (r.close [] ⟨r.records.flatten, r.buffer⟩) else none

/-- What the call under way has read. -/
def Reader.part (r : Reader α) : List α := r.call.getD []

/-- What of a stream's bytes the reader has taken, session by session. -/
def Reader.gone (r : Reader α) : List α := r.past.flatMap fun s => s.read ++ s.lost

/-- All records that the reader has returned. -/
def Reader.returned (full : List α → Bool) (r : Reader α) : List (List α) :=
  r.past.flatMap (fun s => recordsOf full s.read) ++ r.records

section
variable {full : List α → Bool} {block : Nat} {part s t : List α} {a : α}

theorem cut_cons_full (h : full (part ++ [a]) = true) (s : List α) :
    cut full part (a :: s) = ((part ++ [a]) :: (cut full [] s).1, (cut full [] s).2) := by
  rw [cut, if_pos h]

theorem cut_cons_open (h : full (part ++ [a]) = false) (s : List α) :
    cut full part (a :: s) = cut full (part ++ [a]) s := by
  rw [cut, if_neg (by simp [h])]

theorem cut_append (part s t : List α) : cut full part (s ++ t) =
    ((cut full part s).1 ++ (cut full (cut full part s).2 t).1,
      (cut full (cut full part s).2 t).2) := by
  induction s generalizing part with
  | nil => rfl
  | cons a s ih =>
    rw [List.cons_append]
    cases h : full (part ++ [a]) with
    | true =>
      rw [cut_cons_full h, cut_cons_full h, ih]
      rfl
    | false => rw [cut_cons_open h, cut_cons_open h, ih]

theorem recordsOf_cut {records : List (List α)} (h : cut full [] s = (records, part)) :
    recordsOf full s = records ++ lastRecord part := by
  rw [recordsOf, h]

/-- The records of a session are those of its stream, and the pipe has the rest. -/
structure Reader.Sound (full : List α → Bool) (block : Nat) (r : Reader α) : Prop where
  written : r.written = r.gone ++ r.records.flatten ++ r.part ++ r.buffer ++ r.pipe
  cut : cut full [] (r.records.flatten ++ r.part) = (r.records, r.part)
  buffered : r.buffer.length ≤ block
  closed : r.opened = false → r.records = [] ∧ r.call = none ∧ r.buffer = []
  lost : ∀ s ∈ r.past, s.lost.length ≤ block

/-- What a step does to a sound reader: it keeps it sound, and returns a record or none. -/
structure Reader.Kept (full : List α → Bool) (block : Nat) (r r' : Reader α)
    (out : List (List α)) : Prop where
  sound : r'.Sound full block
  returned : r'.returned full = r.returned full ++ out

/-- The session ends where its records are those of what it has read. -/
theorem Reader.Sound.close {r : Reader α} (h : r.Sound full block) {session : Session α}
    {last : List (List α)} (hgone : r.records.flatten ++ r.part ++ r.buffer =
      session.read ++ session.lost)
    (hrecords : recordsOf full session.read = r.records ++ last)
    (hlost : session.lost.length ≤ block) :
    r.Kept full block (r.close last session).1 (r.close last session).2 := by
  have hwritten := h.written
  refine ⟨⟨?_, rfl, Nat.zero_le _, fun _ => ⟨rfl, rfl, rfl⟩, ?_⟩, ?_⟩
  · show r.written = (r.past ++ [session]).flatMap (fun s => s.read ++ s.lost) ++ [] ++ [] ++ [] ++
      r.pipe
    rw [hwritten, List.flatMap_append, List.flatMap_singleton, ← hgone, Reader.gone]
    simp only [List.append_assoc, List.append_nil]
  · intro s hs
    obtain hs | hs := List.mem_append.mp hs
    · exact h.lost s hs
    · rw [List.mem_singleton.mp hs]
      exact hlost
  · show (r.past ++ [session]).flatMap (fun s => recordsOf full s.read) ++ [] = _
    rw [List.flatMap_append, List.flatMap_singleton, hrecords, Reader.returned]
    simp only [List.append_assoc, List.append_nil]
    rfl

theorem Reader.Sound.take {r : Reader α} (h : r.Sound full block) {a : α} {buffer : List α}
    (hcall : r.call = some part) (hbuffer : r.buffer = a :: buffer) {r' : Reader α}
    {out : List (List α)} (hs : r.step full block .take = some (r', out)) :
    r.Kept full block r' out := by
  have hpart : r.part = part := by rw [Reader.part, hcall, Option.getD_some]
  have hcut := h.cut
  rw [hpart] at hcut
  have hwritten := h.written
  rw [hpart, hbuffer] at hwritten
  have hshort : buffer.length ≤ block := by
    have hlong := h.buffered
    rw [hbuffer, List.length_cons] at hlong
    omega
  have hopened : r.opened ≠ false := by
    intro hclosed
    rw [(h.closed hclosed).2.1] at hcall
    cases hcall
  rw [Reader.step, hcall, hbuffer] at hs
  dsimp only at hs
  cases hfull : full (part ++ [a]) with
  | true =>
    rw [hfull, if_pos rfl] at hs
    cases hs
    refine ⟨⟨?_, ?_, hshort, fun hclosed => absurd hclosed hopened, h.lost⟩, ?_⟩
    · show r.written = r.gone ++ (r.records ++ [part ++ [a]]).flatten ++ [] ++ buffer ++ r.pipe
      rw [hwritten]
      simp
    · show LineReader.cut full [] ((r.records ++ [part ++ [a]]).flatten ++ []) =
        (r.records ++ [part ++ [a]], [])
      have hstream : (r.records ++ [part ++ [a]]).flatten ++ [] =
          r.records.flatten ++ part ++ [a] := by simp
      rw [hstream, cut_append, hcut]
      dsimp only
      rw [cut_cons_full hfull]
      rfl
    · show _ ++ (r.records ++ [part ++ [a]]) = _
      rw [Reader.returned, List.append_assoc]
  | false =>
    rw [hfull, if_neg Bool.false_ne_true] at hs
    cases hs
    refine ⟨⟨?_, ?_, hshort, fun hclosed => absurd hclosed hopened, h.lost⟩, ?_⟩
    · show r.written = r.gone ++ r.records.flatten ++ (part ++ [a]) ++ buffer ++ r.pipe
      rw [hwritten]
      simp
    · show LineReader.cut full [] (r.records.flatten ++ (part ++ [a])) = (r.records, part ++ [a])
      rw [← List.append_assoc, cut_append, hcut]
      dsimp only
      rw [cut_cons_open hfull, LineReader.cut, List.append_nil]
    · exact (List.append_nil _).symm

theorem Reader.Sound.fill {r : Reader α} (h : r.Sound full block) {a : α} {pipe : List α}
    (hcall : r.call = some part) (hbuffer : r.buffer = []) (hpipe : r.pipe = a :: pipe) :
    r.Kept full block
      { r with buffer := (a :: pipe).take block, pipe := (a :: pipe).drop block } [] := by
  have hwritten := h.written
  rw [hbuffer, hpipe, List.append_nil] at hwritten
  refine ⟨⟨?_, h.cut, List.length_take_le _ _, fun hclosed => ?_, h.lost⟩, (List.append_nil _).symm⟩
  · show r.written = r.gone ++ r.records.flatten ++ r.part ++ (a :: pipe).take block ++
      (a :: pipe).drop block
    rw [hwritten, List.append_assoc _ ((a :: pipe).take block), List.take_append_drop]
  · rw [(h.closed hclosed).2.1] at hcall
    cases hcall

/-- Whatever a step is, the reader stays sound. -/
theorem Reader.Sound.step {r r' : Reader α} (h : r.Sound full block) {e : Event α}
    {out : List (List α)} (hs : r.step full block e = some (r', out)) :
    r.Kept full block r' out := by
  have hsame : r.returned full = r.returned full ++ [] := (List.append_nil _).symm
  cases e with
  | write s =>
    rw [Reader.step] at hs
    split at hs
    · cases hs
      refine ⟨⟨?_, h.cut, h.buffered, h.closed, h.lost⟩, hsame⟩
      show r.written ++ s = r.gone ++ r.records.flatten ++ r.part ++ r.buffer ++ (r.pipe ++ s)
      rw [h.written, ← List.append_assoc]
    · cases hs
  | writers present =>
    cases hs
    exact ⟨⟨h.written, h.cut, h.buffered, h.closed, h.lost⟩, hsame⟩
  | reopen =>
    rw [Reader.step] at hs
    split at hs
    · cases hs
      refine ⟨⟨h.written, h.cut, h.buffered, fun hclosed => ?_, h.lost⟩, hsame⟩
      exact absurd hclosed (by simp)
    · cases hs
  | call =>
    rw [Reader.step] at hs
    split at hs
    · rename_i hbegins
      simp only [Bool.and_eq_true, Option.isNone_iff_eq_none] at hbegins
      obtain ⟨⟨hopened, hcall⟩, -⟩ := hbegins
      cases hs
      have hpart : r.part = [] := by rw [Reader.part, hcall, Option.getD_none]
      have hwritten := h.written
      have hcut := h.cut
      rw [hpart] at hwritten hcut
      refine ⟨⟨hwritten, hcut, h.buffered, fun hclosed => ?_, h.lost⟩, hsame⟩
      exact absurd (hopened.symm.trans hclosed) (by simp)
    · cases hs
  | take =>
    cases hcall : r.call with
    | none =>
      rw [Reader.step, hcall] at hs
      cases hs
    | some part =>
      cases hbuffer : r.buffer with
      | nil =>
        rw [Reader.step, hcall, hbuffer] at hs
        cases hs
      | cons a buffer => exact h.take hcall hbuffer hs
  | fill =>
    rw [Reader.step] at hs
    split at hs
    · rename_i part a pipe hcall hbuffer hpipe
      cases hs
      exact h.fill hcall hbuffer hpipe
    · cases hs
  | eof =>
    rw [Reader.step] at hs
    split at hs
    · rename_i part hcall hbuffer hpipe hwriters
      cases hs
      have hpart : r.part = part := by rw [Reader.part, hcall, Option.getD_some]
      have hcut := h.cut
      rw [hpart] at hcut
      apply h.close
      · rw [hpart, hbuffer]
      · exact recordsOf_cut hcut
      · exact Nat.zero_le _
    · cases hs
  | broken =>
    rw [Reader.step] at hs
    split at hs
    · rename_i hbreaks
      simp only [Bool.and_eq_true, Option.isNone_iff_eq_none] at hbreaks
      cases hs
      have hpart : r.part = [] := by rw [Reader.part, hbreaks.2, Option.getD_none]
      have hcut := h.cut
      rw [hpart, List.append_nil] at hcut
      apply h.close
      · rw [hpart, List.append_nil]
      · exact recordsOf_cut hcut
      · exact h.buffered
    · cases hs

end

end LineReader
