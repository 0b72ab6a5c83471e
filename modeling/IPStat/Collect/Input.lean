import IPStat.Collect.Arguments

namespace IPStat

/-- `argv[i++] = strdup(ptr)` into an array of `size` pointers; `none` is a pointer stored behind
it. -/
def storeArgs (size : Nat) (args : Args) : Option Args :=
  if args.argv.length ≤ size then some args else none

/-- thr_clientproc on what recv gives it: a block of 4097 bytes, all but the last of them cleared.
`none` is an access outside of a buffer or of argv, or a strdup of NULL. -/
def clientLine (last : UInt8) (received : List UInt8) : Option Args := do
  let buffer := received ++ List.replicate (4096 - received.length) 0 ++ [last]
  let text ← CString.text buffer
  if text.length < 2 then none
  else storeArgs 20 (← serverParseArg 0 (buffer.set (text.length - 2) 0) 19)

/-- thr_acct_squid on a line that fgets has put over the old bytes of its buffer. -/
def acctLine (old line : List UInt8) : Option Args := do
  let text ← CString.text (line ++ 0 :: old.drop (line.length + 1))
  storeArgs 20 (← ipParseArg (text ++ [0]) 20 [32])

/-- thr_squid_clientredirector on what recv gives it, in a cleared block of 2048 bytes. -/
def redirectorLine (received : List UInt8) : Option Args := do
  let text ← CString.text (received ++ List.replicate (2048 - received.length) 0)
  storeArgs 6 (← serverParseArg 0 (text ++ [0]) 5)

/-- The text that a sender's bytes are up to their first NUL. -/
def sentText (bytes : List UInt8) : List UInt8 := bytes.takeWhile (· ≠ 0)

/-- A text that is empty or has a byte that is not a blank. -/
def NotBlank (text : List UInt8) : Prop := text = [] ∨ ∃ b ∈ text, b ≠ 32

section
variable {s r : List UInt8} {last : UInt8} {received : List UInt8}

theorem sentText_noNul (bytes : List UInt8) : 0 ∉ sentText bytes := by
  intro hmem
  simpa using List.mem_takeWhile_imp hmem

/-- The text in a cleared buffer ends there, or what was sent fills the buffer. -/
theorem text_sent {size : Nat} (h : received.length ≤ size) (m : List UInt8) :
    CString.text (received ++ List.replicate (size - received.length) 0 ++ m) =
      if (sentText received).length < size then some (sentText received)
      else (CString.text m).map (sentText received ++ ·) := by
  have hpre : (sentText received).IsPrefix received := List.takeWhile_prefix _
  rw [CString.text_received h]
  change (if (sentText received).length < size then _ else _) = _
  split_ifs with hends
  · rfl
  · rw [hpre.eq_of_length_le (by omega)]

theorem tokens_ne_nil_iff : Tokens.tokens (isDelim [32]) s ≠ [] ↔ ∃ b ∈ s, b ≠ 32 := by
  rw [Ne, Tokens.tokens_eq_nil_iff]
  simp [isDelim]

/-- parse_arg with the cap that belongs to its array is right on every text but blanks. -/
theorem store_serverParseArg (hs : 0 ∉ s) (r : List UInt8) (maxTok : Nat) :
    ((serverParseArg 0 (s ++ 0 :: r) maxTok).bind (storeArgs (maxTok + 1))).isSome ↔
      NotBlank s := by
  rw [serverParseArg_tokens hs, NotBlank, ← tokens_ne_nil_iff]
  by_cases hnil : s = []
  · simp [hnil, storeArgs]
  · by_cases hblank : Tokens.tokens (isDelim [32]) s = []
    · simp [hnil, hblank]
    · rw [if_neg hnil, if_neg hblank, ipParseArg_tokens hs, Option.bind_some, storeArgs,
        if_pos (List.length_take_le _ _)]
      simp [hblank]

/-- A console's line: it ends in the cleared bytes, is long enough to be trimmed, and has more
than blanks before the trimmed bytes, or nothing. -/
theorem clientLine_iff (h : received.length ≤ 4096) : (clientLine last received).isSome ↔
    ((sentText received).length < 4096 ∨ last = 0) ∧ 2 ≤ (sentText received).length ∧
      NotBlank ((sentText received).take ((sentText received).length - 2)) := by
  have htext := text_sent h [last]
  rw [clientLine]
  by_cases hends : (sentText received).length < 4096 ∨ last = 0
  · have hsome : CString.text (received ++ List.replicate (4096 - received.length) 0 ++ [last]) =
        some (sentText received) := by
      rw [htext]
      split_ifs with hlt
      · rfl
      · obtain rfl : last = 0 := hends.resolve_left hlt
        simp [CString.text]
    obtain ⟨hclean, r, hbuffer⟩ := CString.eq_append_of_text hsome
    simp only [hsome, Option.bind_eq_bind, Option.bind_some, hends, true_and]
    by_cases hshort : (sentText received).length < 2
    · rw [if_pos hshort]
      simp [Nat.not_le.mpr hshort]
    · have htrim : (sentText received ++ 0 :: r).set ((sentText received).length - 2) 0 =
          (sentText received).take ((sentText received).length - 2) ++
            0 :: (sentText received ++ 0 :: r).drop ((sentText received).length - 2 + 1) := by
        rw [List.set_eq_take_append_cons_drop, if_pos (by rw [List.length_append]; omega),
          List.take_append_of_le_length (by omega)]
      have hclean' : 0 ∉ (sentText received).take ((sentText received).length - 2) :=
        fun hmem => hclean (List.mem_of_mem_take hmem)
      rw [if_neg hshort, hbuffer, htrim, store_serverParseArg hclean']
      simp [Nat.le_of_not_lt hshort]
  · have hnone : CString.text (received ++ List.replicate (4096 - received.length) 0 ++ [last]) =
        none := by
      rw [not_or] at hends
      rw [htext, if_neg hends.1]
      simp [CString.text, hends.2]
    simp only [hnone, Option.bind_eq_bind, Option.bind_none, hends, false_and]
    simp

/-- A squid line: its tokens are no more than the array has pointers, which its cap does not
see to. -/
theorem acctLine_iff (old line : List UInt8) : (acctLine old line).isSome ↔
    (Tokens.tokens (isDelim [32]) (sentText line)).length ≤ 20 := by
  have htext : CString.text (line ++ 0 :: old.drop (line.length + 1)) = some (sentText line) := by
    rw [CString.text_append_eq]
    split_ifs with hnul
    · rfl
    · have hwhole : sentText line = line := by
        rw [sentText, List.takeWhile_eq_self_iff]
        intro b hb
        simpa using fun h : b = 0 => hnul (h ▸ hb)
      rw [hwhole]
      simp [CString.text]
  rw [acctLine, htext]
  simp only [Option.bind_eq_bind, Option.bind_some, ipParseArg_tokens (sentText_noNul line)]
  rw [storeArgs, List.length_take]
  split_ifs with hfits
  · simp
    omega
  · simp
    omega

/-- A redirector's request: it ends in the cleared bytes, and has more than blanks, or nothing. -/
theorem redirectorLine_iff (h : received.length ≤ 2048) : (redirectorLine received).isSome ↔
    (sentText received).length < 2048 ∧ NotBlank (sentText received) := by
  have htext := text_sent h []
  rw [List.append_nil] at htext
  rw [redirectorLine, htext]
  by_cases hends : (sentText received).length < 2048
  · have hparse := store_serverParseArg (sentText_noNul received) [] 5
    rw [← hparse, if_pos hends]
    simp only [Option.bind_eq_bind, Option.bind_some, hends, true_and]
  · rw [if_neg hends]
    simp [CString.text, hends]

end

/-- What the three readers take without an access out of bounds. -/
theorem input_in_bounds_iff (last : UInt8) (received old line request : List UInt8)
    (hreceived : received.length ≤ 4096) (hrequest : request.length ≤ 2048) :
    ((clientLine last received).isSome ↔
      ((sentText received).length < 4096 ∨ last = 0) ∧ 2 ≤ (sentText received).length ∧
        NotBlank ((sentText received).take ((sentText received).length - 2))) ∧
    ((acctLine old line).isSome ↔
      (Tokens.tokens (isDelim [32]) (sentText line)).length ≤ 20) ∧
    ((redirectorLine request).isSome ↔
      (sentText request).length < 2048 ∧ NotBlank (sentText request)) :=
  ⟨clientLine_iff hreceived, acctLine_iff old line, redirectorLine_iff hrequest⟩

/-- `date`, with the two bytes that a terminal ends it with. -/
def dateLine : List UInt8 := [100, 97, 116, 101, 13, 10]

theorem input_in_bounds_date :
    ((clientLine 255 dateLine).isSome ↔
      ((sentText dateLine).length < 4096 ∨ (255 : UInt8) = 0) ∧ 2 ≤ (sentText dateLine).length ∧
        NotBlank ((sentText dateLine).take ((sentText dateLine).length - 2))) ∧
    ((acctLine (List.replicate 2048 0) dateLine).isSome ↔
      (Tokens.tokens (isDelim [32]) (sentText dateLine)).length ≤ 20) ∧
    ((redirectorLine dateLine).isSome ↔
      (sentText dateLine).length < 2048 ∧ NotBlank (sentText dateLine)) :=
  input_in_bounds_iff 255 dateLine (List.replicate 2048 0) dateLine dateLine (by decide) (by decide)

/-- A line of 21 tokens. -/
def crowdedLine : List UInt8 := (List.replicate 20 [97, 32]).flatten ++ [97, 10]

/-- The console closed, or one blank sent on a line; 21 tokens in the log; one blank from the
redirector. -/
theorem input_out_of_bounds :
    clientLine 0 [] = none ∧ clientLine 0 [32, 13, 10] = none ∧
      acctLine (List.replicate 2048 0) crowdedLine = none ∧ redirectorLine [32] = none := by
  have hblank : ¬ NotBlank [32] := by simp [NotBlank]
  have htokens : (Tokens.tokens (isDelim [32]) (sentText crowdedLine)).length = 21 := by decide
  refine ⟨?_, ?_, ?_, ?_⟩
  all_goals rw [← Option.not_isSome_iff_eq_none]
  · rw [clientLine_iff (by decide)]
    simp [sentText]
  · rw [clientLine_iff (by decide)]
    intro hsafe
    exact hblank hsafe.2.2
  · rw [acctLine_iff, htokens]
    decide
  · rw [redirectorLine_iff (by decide)]
    intro hsafe
    exact hblank hsafe.2

end IPStat
