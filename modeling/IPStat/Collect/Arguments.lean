import IPStat.Collect.Message
import IPStat.Lib.Tokens

namespace IPStat

/-- What a parser leaves in `*argc`, and the strings it stores from argv[0] on. -/
structure Args where
  argc : Nat
  argv : List (List UInt8)
  deriving DecidableEq, Repr

/-- ip_strtok_r, which has the text of m_strtok_r. -/
def ipStrtokR (delim mem : List UInt8) (s : Nat) : Option (List UInt8 × Nat × Option Nat) :=
  mStrtokR delim mem s

/-- The loop of ip_parse_arg. -/
def ipParseRest (delim : List UInt8) (maxTok : Nat) (mem : List UInt8) (s i : Nat)
    (argv : List (List UInt8)) : Option Args :=
  match ipStrtokR delim mem s with
  | none => none
  | some (_, _, none) => some ⟨i, argv⟩
  | some (mem, save, some token) =>
    if maxTok < i then some ⟨i, argv⟩
    else do
      let ptr ← CString.text (mem.drop token)
      ipParseRest delim maxTok mem save (i + 1) (argv ++ [ptr])
termination_by maxTok + 1 - i

/-- ip_parse_arg; the buffer is a block of memory. -/
def ipParseArg (buffer : List UInt8) (maxTok : Nat) (delim : List UInt8) : Option Args :=
  match buffer with
  | [] => none
  | b :: _ =>
    if b = 0 then some ⟨0, []⟩
    else match ipStrtokR delim buffer 0 with
      | none => none
      | some (_, _, none) => some ⟨0, []⟩
      | some (mem, save, some token) => do
        let ptr ← CString.text (mem.drop token)
        ipParseRest delim maxTok mem save 1 [ptr]

/-- strtok from its static place `s`: the buffer, the place it keeps and the token's. -/
def strtok (delim mem : List UInt8) (s : Nat) : Option (List UInt8 × Nat × Option Nat) := do
  let token := s + (← CString.strspn delim (mem.drop s))
  if mem[token]? = some 0 then return (mem, token, none)
  else
    let stop := token + (← CString.strcspn delim (mem.drop token))
    if mem[stop]? = some 0 then return (mem, stop, some token)
    else return (mem.set stop 0, stop + 1, some token)

/-- The loop of parse_arg in server.c, and of the one in ipstat_collect_squid/main.c. -/
def serverParseRest (maxTok : Nat) (mem : List UInt8) (s i : Nat) (argv : List (List UInt8)) :
    Option Args :=
  match strtok [32] mem s with
  | none => none
  | some (_, _, none) => some ⟨i, argv⟩
  | some (mem, save, some token) =>
    if maxTok < i then some ⟨i, argv⟩
    else do
      let ptr ← CString.text (mem.drop token)
      serverParseRest maxTok mem save (i + 1) (argv ++ [ptr])
termination_by maxTok + 1 - i

/-- parse_arg of the console. An empty buffer leaves `*argc` as it was; a first token that is
NULL goes to strdup. -/
def serverParseArg (argc : Nat) (buffer : List UInt8) (maxTok : Nat) : Option Args :=
  match buffer with
  | [] => none
  | b :: _ =>
    if b = 0 then some ⟨argc, []⟩
    else match strtok [32] buffer 0 with
      | none | some (_, _, none) => none
      | some (mem, save, some token) => do
        let ptr ← CString.text (mem.drop token)
        serverParseRest maxTok mem save 1 [ptr]

/-- A byte between tokens. -/
def isDelim (delim : List UInt8) (b : UInt8) : Bool := decide (b ∈ delim)

section
variable {delim s tok rest mem : List UInt8} {d : UInt8} {maxTok i : Nat}

/-- strtok is m_strtok_r with its place kept for it. -/
theorem strtok_eq (delim mem : List UInt8) (s : Nat) :
    strtok delim mem s = mStrtokR delim mem s := by
  simp only [strtok, mStrtokR, Option.bind_eq_bind]
  cases CString.strspn delim (mem.drop s) with
  | none => rfl
  | some n =>
    simp only [Option.bind_some]
    split_ifs with hend
    · rfl
    rw [CString.strpbrk_eq]
    cases hstop : CString.strcspn delim (mem.drop (s + n)) with
    | none => rfl
    | some k =>
      have hget : (mem.drop (s + n))[k]? = mem[s + n + k]? := List.getElem?_drop
      simp only [Option.bind_some, Option.map_some, hget]
      split_ifs with hnul
      · obtain ⟨t, ht, hlen⟩ := CString.text_length hstop (hget.trans hnul)
        rw [ht, Option.bind_some, hlen]
      · rfl

/-- ip_parse_arg stores what libxml's parse_arg returns, from its second token on. -/
theorem ipParseRest_eq (mem : List UInt8) (s : Nat) (argv : List (List UInt8))
    (hi : i ≤ maxTok + 1) : ipParseRest delim maxTok mem s i argv =
      (parseRest delim (maxTok + 1 - i) mem s).map fun rest =>
        ⟨i + rest.length, argv ++ rest⟩ := by
  obtain ⟨room, hroom⟩ : ∃ room, room = maxTok + 1 - i := ⟨_, rfl⟩
  induction room generalizing mem s i argv with
  | zero =>
    rw [ipParseRest, ipStrtokR, ← hroom, parseRest]
    cases mStrtokR delim mem s with
    | none => rfl
    | some q =>
      obtain ⟨mem', save, token⟩ := q
      cases token with
      | none => simp
      | some token => simp [show maxTok < i by omega]
  | succ room ih =>
    rw [ipParseRest, ipStrtokR, ← hroom, parseRest]
    cases mStrtokR delim mem s with
    | none => rfl
    | some q =>
      obtain ⟨mem', save, token⟩ := q
      cases token with
      | none => simp
      | some token =>
        simp only [Option.bind_eq_bind, if_neg (show ¬ maxTok < i by omega)]
        cases CString.text (mem'.drop token) with
        | none => rfl
        | some ptr =>
          have hnext : room = maxTok + 1 - (i + 1) := by omega
          rw [Option.bind_some, Option.bind_some, ih _ _ _ (by omega) hnext, ← hnext]
          cases parseRest delim room mem' save with
          | none => rfl
          | some rest =>
            simp
            omega

theorem ipParseArg_eq (buffer delim : List UInt8) (maxTok : Nat) : ipParseArg buffer maxTok delim =
    (parseArg buffer maxTok delim).map fun argv => ⟨argv.length, argv⟩ := by
  cases buffer with
  | nil => rfl
  | cons b buffer =>
    rw [ipParseArg, parseArg]
    split_ifs with hb
    · rfl
    · rw [ipStrtokR, parseRest]
      cases mStrtokR delim (b :: buffer) 0 with
      | none => rfl
      | some q =>
        obtain ⟨mem, save, token⟩ := q
        cases token with
        | none => rfl
        | some token =>
          simp only [Option.bind_eq_bind]
          cases CString.text (mem.drop token) with
          | none => rfl
          | some ptr =>
            rw [Option.bind_some, Option.bind_some, ipParseRest_eq _ _ _ (by omega),
              Nat.add_sub_cancel]
            cases parseRest delim maxTok mem save with
            | none => rfl
            | some rest => simp [Nat.add_comm]

/-- m_strtok_r passes a delimiter. -/
theorem mStrtokR_skip (hd : isDelim delim d = true) (hzero : d ≠ 0) (before r : List UInt8) :
    mStrtokR delim (before ++ d :: r) before.length =
      mStrtokR delim (before ++ d :: r) (before.length + 1) := by
  have hin : d ∈ delim := by simpa [isDelim] using hd
  have hdrop : (before ++ d :: r).drop (before.length + 1) = r := by
    rw [← List.drop_drop, List.drop_left, List.drop_succ_cons, List.drop_zero]
  simp only [mStrtokR, List.drop_left, hdrop, CString.strspn_cons hzero hin, Option.bind_eq_bind]
  cases CString.strspn delim r with
  | none => rfl
  | some n =>
    simp only [Option.map_some, Option.bind_some]
    rw [show before.length + (n + 1) = before.length + 1 + n by omega]

theorem mStrtokR_nul (delim before r : List UInt8) :
    mStrtokR delim (before ++ 0 :: r) before.length =
      some (before ++ 0 :: r, before.length, none) := by
  have hspan : CString.strspn delim (0 :: r) = some 0 := CString.strspn_zero (.inl rfl) r
  simp [mStrtokR, hspan]

/-- The last token ends with the text. -/
theorem mStrtokR_last (hne : tok ≠ []) (htok : ∀ b ∈ tok, b ≠ 0 ∧ b ∉ delim)
    (before r : List UInt8) : mStrtokR delim (before ++ (tok ++ 0 :: r)) before.length =
      some (before ++ (tok ++ 0 :: r), before.length + tok.length, some before.length) := by
  obtain ⟨b, tail, rfl⟩ := List.exists_cons_of_ne_nil hne
  have hb := htok b List.mem_cons_self
  have hnul : 0 ∉ b :: tail := fun h => (htok 0 h).1 rfl
  have hspan : CString.strspn delim ((b :: tail) ++ 0 :: r) = some 0 :=
    CString.strspn_zero (.inr hb.2) _
  have hbreak := CString.strpbrk_clean htok r
  have hfirst : (before ++ ((b :: tail) ++ 0 :: r))[before.length]? = some b := by simp
  simp only [mStrtokR, List.drop_left, hspan, Option.bind_eq_bind, Option.bind_some,
    Nat.add_zero, hfirst, Option.some.injEq, hb.1, if_false, hbreak, CString.text_append hnul r]
  rfl

/-- The loop of parse_arg takes the tokens one after the other, as long as there is room. -/
theorem parseRest_tokens (s : List UInt8) (hs : 0 ∉ s) (room : Nat) (before r : List UInt8) :
    parseRest delim room (before ++ (s ++ 0 :: r)) before.length =
      some ((Tokens.tokens (isDelim delim) s).take room) := by
  have hclean {tok : List UInt8} (hnul : 0 ∉ tok)
      (htok : ∀ b ∈ tok, isDelim delim b = false) : ∀ b ∈ tok, b ≠ 0 ∧ b ∉ delim := by
    intro b hb
    refine ⟨fun h => hnul (h ▸ hb), ?_⟩
    simpa [isDelim] using htok b hb
  induction s using Tokens.splitting (isDelim delim) generalizing room before with
  | last s hall =>
    rw [Tokens.tokens_of_forall hall]
    by_cases hnil : s = []
    · subst hnil
      rw [List.nil_append, parseRest, mStrtokR_nul]
      simp
    · rw [if_neg hnil, parseRest, mStrtokR_last hnil (hclean hs hall)]
      cases room with
      | zero => rfl
      | succ room =>
        have hend := mStrtokR_nul delim (before ++ s) r
        rw [List.append_assoc, List.length_append] at hend
        simp only [List.drop_left, CString.text_append hs, Option.bind_eq_bind, Option.bind_some]
        rw [parseRest, hend]
        simp
  | sep tok d rest htok hd ih =>
    have hnul : 0 ∉ tok := fun h => hs (List.mem_append_left _ h)
    have hzero : d ≠ 0 := fun h => hs (h ▸ List.mem_append_right _ List.mem_cons_self)
    have hrest : 0 ∉ rest := fun h => hs (List.mem_append_right _ (List.mem_cons_of_mem d h))
    have hin : d ∈ delim := by simpa [isDelim] using hd
    rw [Tokens.tokens_append htok hd, List.append_assoc, List.cons_append]
    by_cases hnil : tok = []
    · subst hnil
      have hnext := ih hrest room (before ++ [d])
      rw [List.append_assoc, List.singleton_append, List.length_append, List.length_singleton]
        at hnext
      rw [parseRest] at hnext ⊢
      rw [List.nil_append, mStrtokR_skip hd hzero]
      exact hnext
    · rw [if_neg hnil, parseRest, mStrtokR_token hnil (hclean hnul htok) hin hzero]
      cases room with
      | zero => rfl
      | succ room =>
        have hnext := ih hrest room (before ++ (tok ++ [0]))
        have hplace : (before ++ (tok ++ [0])).length = before.length + tok.length + 1 := by
          simp [Nat.add_assoc]
        have hmem : before ++ (tok ++ [0]) ++ (rest ++ 0 :: r) =
            before ++ (tok ++ 0 :: (rest ++ 0 :: r)) := by
          simp
        rw [hplace, hmem] at hnext
        simp only [List.drop_left, CString.text_append hnul, Option.bind_eq_bind,
          Option.bind_some, hnext]
        rfl

theorem parseArg_tokens (hs : 0 ∉ s) (r : List UInt8) (maxTok : Nat) :
    parseArg (s ++ 0 :: r) maxTok delim =
      some ((Tokens.tokens (isDelim delim) s).take (maxTok + 1)) := by
  cases s with
  | nil => simp [parseArg]
  | cons b s =>
    have hb : b ≠ 0 := fun h => hs (h ▸ List.mem_cons_self)
    rw [List.cons_append, parseArg, if_neg hb]
    exact parseRest_tokens (b :: s) hs (maxTok + 1) [] r

theorem ipParseArg_tokens (hs : 0 ∉ s) (r : List UInt8) (maxTok : Nat) :
    ipParseArg (s ++ 0 :: r) maxTok delim =
      some ⟨min (maxTok + 1) (Tokens.tokens (isDelim delim) s).length,
        (Tokens.tokens (isDelim delim) s).take (maxTok + 1)⟩ := by
  rw [ipParseArg_eq, parseArg_tokens hs, Option.map_some, List.length_take]

theorem serverParseRest_eq (mem : List UInt8) (s i : Nat) (argv : List (List UInt8)) :
    serverParseRest maxTok mem s i argv = ipParseRest [32] maxTok mem s i argv := by
  rw [serverParseRest, ipParseRest, strtok_eq, ipStrtokR]
  cases mStrtokR [32] mem s with
  | none => rfl
  | some q =>
    obtain ⟨mem', save, token⟩ := q
    cases token with
    | none => rfl
    | some token =>
      simp only [Option.bind_eq_bind]
      split_ifs with hi
      · rfl
      · cases CString.text (mem'.drop token) with
        | none => rfl
        | some ptr => exact serverParseRest_eq mem' save (i + 1) (argv ++ [ptr])
termination_by maxTok + 1 - i

/-- The console's parser is ip_parse_arg but for an empty text and one of blanks alone. -/
theorem serverParseArg_tokens (hs : 0 ∉ s) (r : List UInt8) (argc maxTok : Nat) :
    serverParseArg argc (s ++ 0 :: r) maxTok =
      if s = [] then some ⟨argc, []⟩
      else if Tokens.tokens (isDelim [32]) s = [] then none
      else ipParseArg (s ++ 0 :: r) maxTok [32] := by
  cases s with
  | nil => simp [serverParseArg]
  | cons b s =>
    have hb : b ≠ 0 := fun h => hs (h ▸ List.mem_cons_self)
    -- parse_arg stores what its loop returns, and nothing only for want of a token
    have hrest : parseRest [32] 1 ((b :: s) ++ 0 :: r) 0 =
        some ((Tokens.tokens (isDelim [32]) (b :: s)).take 1) :=
      parseRest_tokens (b :: s) hs 1 [] r
    rw [parseRest] at hrest
    rw [if_neg (List.cons_ne_nil b s), List.cons_append, serverParseArg, ipParseArg, if_neg hb,
      if_neg hb, strtok_eq, ipStrtokR, ← List.cons_append]
    cases htoken : mStrtokR [32] (b :: s ++ 0 :: r) 0 with
    | none =>
      rw [htoken] at hrest
      cases hrest
    | some q =>
      obtain ⟨mem, save, token⟩ := q
      simp only [htoken] at hrest
      cases token with
      | none =>
        have hnil : Tokens.tokens (isDelim [32]) (b :: s) = [] := by simpa using hrest.symm
        rw [if_pos hnil]
      | some token =>
        have hne : Tokens.tokens (isDelim [32]) (b :: s) ≠ [] := by
          intro hnil
          rw [hnil] at hrest
          cases htext : CString.text (mem.drop token) with
          | none => simp [htext] at hrest
          | some ptr =>
            cases hnext : parseRest [32] 0 mem save <;> simp [htext, hnext] at hrest
        rw [if_neg hne]
        simp only [serverParseRest_eq]

end

/-- The parsers store the maximal runs without a delimiter, in order and up to their cap, and
they agree. -/
theorem parsers_split (buffer s delim : List UInt8) (argc maxTok : Nat)
    (h : CString.text buffer = some s) :
    (∃ runs : List (Nat × Nat), runs.Pairwise (fun run next => run.2 < next.1) ∧
      (∀ i j, (i, j) ∈ runs ↔ Tokens.IsRun (isDelim delim) s i j) ∧
      ipParseArg buffer maxTok delim = some ⟨min (maxTok + 1) runs.length,
        (runs.map fun run => Tokens.slice s run.1 run.2).take (maxTok + 1)⟩) ∧
    parseArg buffer maxTok delim = (ipParseArg buffer maxTok delim).map Args.argv ∧
    ((∃ i j, Tokens.IsRun (isDelim [32]) s i j) →
      serverParseArg argc buffer maxTok = ipParseArg buffer maxTok [32]) := by
  obtain ⟨hs, r, rfl⟩ := CString.eq_append_of_text h
  refine ⟨?_, ?_, ?_⟩
  · obtain ⟨runs, hruns⟩ := Tokens.exists_runs (isDelim delim) s
    refine ⟨runs, hruns.sorted, hruns.mem_iff, ?_⟩
    rw [ipParseArg_tokens hs, hruns.tokens_eq, List.length_map]
  · rw [ipParseArg_tokens hs, parseArg_tokens hs]
    rfl
  · intro hrun
    obtain ⟨i, j, hrun⟩ := hrun
    obtain ⟨runs, hruns⟩ := Tokens.exists_runs (isDelim [32]) s
    have hmem := (hruns.mem_iff i j).mpr hrun
    have hne : Tokens.tokens (isDelim [32]) s ≠ [] := by
      rw [hruns.tokens_eq]
      simpa using List.ne_nil_of_mem hmem
    have hs' : s ≠ [] := by
      intro hnil
      subst hnil
      exact hne (Tokens.tokens_nil _)
    rw [serverParseArg_tokens hs, if_neg hs', if_neg hne]

/-- ` show  users `. -/
def showUsers : List UInt8 := [32, 115, 104, 111, 119, 32, 32, 117, 115, 101, 114, 115, 32]

theorem parsers_split_show :
    (∃ runs : List (Nat × Nat), runs.Pairwise (fun run next => run.2 < next.1) ∧
      (∀ i j, (i, j) ∈ runs ↔ Tokens.IsRun (isDelim [32]) showUsers i j) ∧
      ipParseArg (showUsers ++ [0]) 2 [32] = some ⟨min (2 + 1) runs.length,
        (runs.map fun run => Tokens.slice showUsers run.1 run.2).take (2 + 1)⟩) ∧
    parseArg (showUsers ++ [0]) 2 [32] =
      (ipParseArg (showUsers ++ [0]) 2 [32]).map Args.argv ∧
    ((∃ i j, Tokens.IsRun (isDelim [32]) showUsers i j) →
      serverParseArg 0 (showUsers ++ [0]) 2 = ipParseArg (showUsers ++ [0]) 2 [32]) :=
  parsers_split (showUsers ++ [0]) showUsers [32] 0 2 (by decide)

end IPStat
