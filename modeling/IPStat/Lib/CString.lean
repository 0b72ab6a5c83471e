import Mathlib.Data.List.Basic
import Mathlib.Data.List.TakeWhile
import Mathlib.Tactic.SplitIfs

/-! Strings in blocks of memory. A block is the list of its bytes; `none` is a read behind it. -/

namespace CString

/-- The string that a block begins with. -/
def text : List UInt8 → Option (List UInt8)
  | [] => none
  | b :: m => if b = 0 then some [] else (text m).map (b :: ·)

/-- The `n` bytes that strncpy writes: the string, and zeros behind it. -/
def copied : Nat → List UInt8 → Option (List UInt8)
  | 0, _ => some []
  | _ + 1, [] => none
  | n + 1, b :: m =>
    if b = 0 then some (List.replicate (n + 1) 0) else (copied n m).map (b :: ·)

def strncpy (dst src : List UInt8) (n : Nat) : Option (List UInt8) :=
  (copied n src).map (· ++ dst.drop n)

/-- What strncpy leaves when it copies a whole string: the string cut to `n` bytes, or with zeros
behind it. -/
def put (dst s : List UInt8) (n : Nat) : List UInt8 :=
  s.take n ++ List.replicate (n - s.length) 0 ++ dst.drop n

/-- How many bytes of `accept` a block begins with. -/
def strspn (accept : List UInt8) : List UInt8 → Option Nat
  | [] => none
  | b :: m => if b ≠ 0 ∧ b ∈ accept then (strspn accept m).map (· + 1) else some 0

/-- The place of the first byte of `accept` in a string; the inner `none` is NULL. -/
def strpbrk (accept : List UInt8) : List UInt8 → Option (Option Nat)
  | [] => none
  | b :: m =>
    if b = 0 then some none
    else if b ∈ accept then some (some 0)
    else (strpbrk accept m).map fun k => k.map (· + 1)

/-- How many bytes a string begins with that are not in `reject`. -/
def strcspn (reject : List UInt8) : List UInt8 → Option Nat
  | [] => none
  | b :: m => if b = 0 ∨ b ∈ reject then some 0 else (strcspn reject m).map (· + 1)

/-- What sprintf leaves of a buffer; `none` is a write behind it. -/
def sprintf (dst s : List UInt8) : Option (List UInt8) :=
  if s.length < dst.length then some (s ++ 0 :: dst.drop (s.length + 1)) else none

/-- `strncmp(a, b, n) == 0`; a missing byte ends a string. -/
def strncmpEq : Nat → List UInt8 → List UInt8 → Bool
  | 0, _, _ => true
  | n + 1, a, b =>
    if a.headD 0 ≠ b.headD 0 then false
    else if a.headD 0 = 0 then true
    else strncmpEq n a.tail b.tail

section
variable {s t r r' dst accept : List UInt8} {c : UInt8} {n : Nat}

@[simp] theorem text_append (hs : 0 ∉ s) (r : List UInt8) : text (s ++ 0 :: r) = some s := by
  induction s with
  | nil => rfl
  | cons b s ih =>
    have hb : b ≠ 0 := fun h => hs (h ▸ List.mem_cons_self)
    have htail : 0 ∉ s := fun h => hs (List.mem_cons_of_mem b h)
    simp [text, hb, ih htail]

theorem sprintf_isSome_iff (dst s : List UInt8) :
    (sprintf dst s).isSome ↔ s.length < dst.length := by
  rw [sprintf]
  split_ifs with hfits
  · exact iff_of_true rfl hfits
  · exact iff_of_false (by simp) hfits

/-- A string and what stands behind its end. -/
theorem eq_append_of_text {m : List UInt8} (h : text m = some s) :
    0 ∉ s ∧ ∃ r, m = s ++ 0 :: r := by
  induction m generalizing s with
  | nil => cases h
  | cons b m ih =>
    rw [text] at h
    split_ifs at h with hb
    · cases h
      exact ⟨List.not_mem_nil, m, by rw [hb, List.nil_append]⟩
    · obtain ⟨t, ht, rfl⟩ := Option.map_eq_some_iff.mp h
      obtain ⟨hclean, r, rfl⟩ := ih ht
      refine ⟨?_, r, rfl⟩
      rw [List.mem_cons, not_or]
      exact ⟨Ne.symm hb, hclean⟩

theorem copied_append (hs : 0 ∉ s) (n : Nat) (r : List UInt8) :
    copied n (s ++ 0 :: r) = some (s.take n ++ List.replicate (n - s.length) 0) := by
  induction s generalizing n with
  | nil => cases n <;> simp [copied]
  | cons b s ih =>
    have hb : b ≠ 0 := fun h => hs (h ▸ List.mem_cons_self)
    have htail : 0 ∉ s := fun h => hs (List.mem_cons_of_mem b h)
    cases n with
    | zero => simp [copied]
    | succ n => simp [copied, hb, ih htail]

theorem strncpy_append (hs : 0 ∉ s) (n : Nat) (dst r : List UInt8) :
    strncpy dst (s ++ 0 :: r) n = some (put dst s n) := by
  rw [strncpy, copied_append hs, Option.map_some, put]

/-- What a cleared buffer holds after a strncpy that leaves its last byte. -/
theorem text_copied {m c : List UInt8} (h : copied n m = some c) :
    text (c ++ [0]) = some ((m.take n).takeWhile (· ≠ 0)) := by
  induction n generalizing m c with
  | zero =>
    cases h
    simp [text]
  | succ n ih =>
    cases m with
    | nil => cases h
    | cons b m =>
      by_cases hb : b = 0
      · simp only [copied, hb, if_true, Option.some.injEq] at h
        subst h
        simp [text, hb, List.replicate_succ]
      · simp only [copied, hb, if_false, Option.map_eq_some_iff] at h
        obtain ⟨c, hc, rfl⟩ := h
        simp [text, hb, ih hc]

theorem text_strncpy_cleared {m v : List UInt8}
    (h : strncpy (List.replicate (n + 1) 0) m n = some v) :
    text v = some ((m.take n).takeWhile (· ≠ 0)) := by
  obtain ⟨c, hc, rfl⟩ := Option.map_eq_some_iff.mp h
  have hrest : (List.replicate (n + 1) (0 : UInt8)).drop n = [0] := by simp
  rw [hrest]
  exact text_copied hc

/-- A string that fits is copied with its end. -/
theorem strncpy_fits (hs : 0 ∉ s) (hn : s.length < n) (dst r : List UInt8) :
    ∃ r', strncpy dst (s ++ 0 :: r) n = some (s ++ 0 :: r') := by
  obtain ⟨k, hk⟩ : ∃ k, n - s.length = k + 1 := ⟨n - s.length - 1, by omega⟩
  refine ⟨List.replicate k 0 ++ dst.drop n, ?_⟩
  rw [strncpy_append hs, put, List.take_of_length_le (Nat.le_of_lt hn), hk, List.replicate_succ]
  simp

/-- A string that fits is told from any other by its copy. -/
theorem strncmpEq_copied (hs : 0 ∉ s) (ht : 0 ∉ t) (hn : s.length < n) (r r' : List UInt8) :
    strncmpEq n (s ++ 0 :: r) (t.take n ++ List.replicate (n - t.length) 0 ++ r') =
      decide (s = t) := by
  induction n generalizing s t with
  | zero => omega
  | succ n ih =>
    cases s with
    | nil =>
      cases t with
      | nil => simp [strncmpEq, List.replicate_succ]
      | cons b t =>
        have hb : b ≠ 0 := fun h => ht (h ▸ List.mem_cons_self)
        simp [strncmpEq, hb.symm]
    | cons a s =>
      have ha : a ≠ 0 := fun h => hs (h ▸ List.mem_cons_self)
      have hs' : 0 ∉ s := fun h => hs (List.mem_cons_of_mem a h)
      cases t with
      | nil => simp [strncmpEq, ha, List.replicate_succ]
      | cons b t =>
        have ht' : 0 ∉ t := fun h => ht (List.mem_cons_of_mem b h)
        have hlen : s.length < n := Nat.lt_of_succ_lt_succ hn
        have hrest := ih hs' ht' hlen
        by_cases hab : a = b
        · subst hab
          simpa [strncmpEq, ha] using hrest
        · simp [strncmpEq, hab]

/-- Comparing with the copy of a string is comparing with the string. -/
theorem strncmpEq_put (n : Nat) (m dst s : List UInt8) :
    strncmpEq n m (put dst s n) = strncmpEq n m s := by
  rw [put, List.append_assoc]
  generalize dst.drop n = r
  induction n generalizing m s with
  | zero => rfl
  | succ n ih =>
    cases s with
    | nil =>
      by_cases hm : m.headD 0 = 0
      · simp only [List.headD_eq_head?_getD] at hm
        simp [strncmpEq, List.replicate_succ, hm]
      · simp only [List.headD_eq_head?_getD] at hm
        simp [strncmpEq, List.replicate_succ, hm]
    | cons b s =>
      have hrest := ih m.tail s
      have hcut : (b :: s).take (n + 1) ++
          (List.replicate (n + 1 - (b :: s).length) 0 ++ r) =
            b :: (s.take n ++ (List.replicate (n - s.length) 0 ++ r)) := by
        simp
      rw [hcut, strncmpEq, strncmpEq, List.tail_cons, List.tail_cons, hrest]
      rfl

/-- strncpy leaves nothing of what it has copied before. -/
@[simp] theorem put_put (dst s t : List UInt8) (n : Nat) : put (put dst s n) t n = put dst t n := by
  have hlen : (s.take n ++ List.replicate (n - s.length) 0).length = n := by
    rw [List.length_append, List.length_take, List.length_replicate]
    omega
  have hdrop : (put dst s n).drop n = dst.drop n := by
    rw [put, List.drop_append_of_le_length (Nat.le_of_eq hlen.symm),
      List.drop_of_length_le (Nat.le_of_eq hlen), List.nil_append]
  rw [put, hdrop]
  rfl

theorem text_append_left (hs : 0 ∉ s) (m : List UInt8) : text (s ++ m) = (text m).map (s ++ ·) := by
  induction s with
  | nil => simp
  | cons b s ih =>
    have hb : b ≠ 0 := fun h => hs (h ▸ List.mem_cons_self)
    have htail : 0 ∉ s := fun h => hs (List.mem_cons_of_mem b h)
    simp [text, hb, ih htail, Option.map_map, Function.comp_def]

theorem text_append_eq (s m : List UInt8) : text (s ++ m) =
    if 0 ∈ s then some (s.takeWhile (· ≠ 0)) else (text m).map (s ++ ·) := by
  induction s with
  | nil => simp
  | cons b s ih =>
    by_cases hb : b = 0
    · simp [text, hb]
    · rw [List.cons_append, text, if_neg hb, ih]
      by_cases hs : 0 ∈ s
      · simp [hs, hb]
      · simp [hs, Ne.symm hb, Option.map_map, Function.comp_def]

/-- What a buffer that was cleared holds after a read into it. -/
theorem text_received {size : Nat} (hs : s.length ≤ size) (m : List UInt8) :
    text (s ++ List.replicate (size - s.length) 0 ++ m) =
      if (s.takeWhile (· ≠ 0)).length < size then some (s.takeWhile (· ≠ 0))
      else (text m).map (s ++ ·) := by
  rw [List.append_assoc, text_append_eq]
  by_cases hnul : 0 ∈ s
  · have hlt : (s.takeWhile (· ≠ 0)).length < s.length := by
      by_contra hge
      have hsame := (List.takeWhile_prefix (· ≠ 0) (l := s)).eq_of_length_le (Nat.le_of_not_lt hge)
      rw [← hsame] at hnul
      simpa using List.mem_takeWhile_imp hnul
    rw [if_pos hnul, if_pos (Nat.lt_of_lt_of_le hlt hs)]
  · have hall : s.takeWhile (· ≠ 0) = s := by
      rw [List.takeWhile_eq_self_iff]
      intro b hb
      simpa using fun h : b = 0 => hnul (h ▸ hb)
    rw [if_neg hnul, hall]
    obtain hlt | heq := Nat.lt_or_eq_of_le hs
    · obtain ⟨k, hk⟩ : ∃ k, size - s.length = k + 1 := ⟨size - s.length - 1, by omega⟩
      rw [if_pos hlt, hk, List.replicate_succ, List.cons_append]
      simp [text]
    · rw [if_neg (by omega), heq, Nat.sub_self]
      rfl

/-- A copy that has no room for its end runs on into the bytes behind. -/
theorem text_put_iff (hs : 0 ∉ s) (dst : List UInt8) (n : Nat) : text (put dst s n) = some t ↔
    s.length < n ∧ s = t ∨
      n ≤ s.length ∧ ∃ rest, text (dst.drop n) = some rest ∧ t = s.take n ++ rest := by
  by_cases hn : s.length < n
  · obtain ⟨k, hk⟩ : ∃ k, n - s.length = k + 1 := ⟨n - s.length - 1, by omega⟩
    have hput : put dst s n = s ++ 0 :: (List.replicate k 0 ++ dst.drop n) := by
      rw [put, List.take_of_length_le (Nat.le_of_lt hn), hk, List.replicate_succ]
      simp
    rw [hput, text_append hs]
    simp [hn, Nat.not_le.mpr hn]
  · have hle : n ≤ s.length := Nat.le_of_not_lt hn
    have hput : put dst s n = s.take n ++ dst.drop n := by
      rw [put, Nat.sub_eq_zero_of_le hle]
      simp
    have hclean : 0 ∉ s.take n := fun h => hs (List.mem_of_mem_take h)
    rw [hput, text_append_left hclean, Option.map_eq_some_iff]
    simp only [hn, hle, false_and, false_or, true_and, eq_comm]

theorem strspn_zero (hc : c = 0 ∨ c ∉ accept) (r : List UInt8) :
    strspn accept (c :: r) = some 0 := by
  have hstop : ¬ (c ≠ 0 ∧ c ∈ accept) := by
    intro h
    cases hc with
    | inl hzero => exact h.1 hzero
    | inr hno => exact hno h.2
  rw [strspn, if_neg hstop]

theorem strpbrk_append (hs : ∀ b ∈ s, b ≠ 0 ∧ b ∉ accept) (hc : c ≠ 0) (hin : c ∈ accept)
    (r : List UInt8) : strpbrk accept (s ++ c :: r) = some (some s.length) := by
  induction s with
  | nil => simp [strpbrk, hc, hin]
  | cons b s ih =>
    obtain ⟨hb, hno⟩ := hs b List.mem_cons_self
    have htail := ih fun d hd => hs d (List.mem_cons_of_mem b hd)
    simp [strpbrk, hb, hno, htail]

theorem strpbrk_clean (hs : ∀ b ∈ s, b ≠ 0 ∧ b ∉ accept) (r : List UInt8) :
    strpbrk accept (s ++ 0 :: r) = some none := by
  induction s with
  | nil => rfl
  | cons b s ih =>
    obtain ⟨hb, hno⟩ := hs b List.mem_cons_self
    have htail := ih fun d hd => hs d (List.mem_cons_of_mem b hd)
    simp [strpbrk, hb, hno, htail]

theorem strspn_cons (hc : c ≠ 0) (hin : c ∈ accept) (r : List UInt8) :
    strspn accept (c :: r) = (strspn accept r).map (· + 1) := by
  rw [strspn, if_pos ⟨hc, hin⟩]

/-- strpbrk stops where strcspn does, and answers NULL at the end of the string. -/
theorem strpbrk_eq (accept m : List UInt8) : strpbrk accept m =
    (strcspn accept m).map fun k => if m[k]? = some 0 then none else some k := by
  induction m with
  | nil => rfl
  | cons b m ih =>
    rw [strpbrk, strcspn, ih]
    by_cases hb : b = 0
    · simp [hb]
    by_cases hin : b ∈ accept
    · simp [hb, hin]
    · rw [if_neg hb, if_neg hin, if_neg (by simp [hb, hin])]
      cases strcspn accept m with
      | none => rfl
      | some k => by_cases hk : m[k]? = some 0 <;> simp [hk]

theorem text_length {m : List UInt8} {k : Nat} (h : strcspn accept m = some k)
    (hend : m[k]? = some 0) : ∃ t, text m = some t ∧ t.length = k := by
  induction m generalizing k with
  | nil => cases h
  | cons b m ih =>
    rw [strcspn] at h
    rw [text]
    by_cases hb : b = 0
    · rw [if_pos (.inl hb)] at h
      cases h
      exact ⟨[], if_pos hb, rfl⟩
    · rw [if_neg hb]
      split_ifs at h with hstop
      · cases h
        exact absurd (by simpa using hend) hb
      · obtain ⟨k', hk', rfl⟩ := Option.map_eq_some_iff.mp h
        obtain ⟨t, ht, hlen⟩ := ih hk' (by simpa using hend)
        exact ⟨b :: t, by rw [ht]; rfl, by rw [List.length_cons, hlen]⟩

end

end CString
