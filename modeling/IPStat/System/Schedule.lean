import IPStat.Collect.Arguments
import IPStat.System.Conf

namespace IPStat

/-- struct tm, as far as the scheduler reads it. -/
structure Tm where
  min : Int
  hour : Int
  mday : Int
  mon : Int
  wday : Int
  deriving DecidableEq, Repr

/-- The vol and vol_div of a NODE_SCHEDULER. -/
structure CronNode where
  vol : Tm
  volDiv : Tm
  deriving DecidableEq, Repr

/-- parse_vol: `*vol` and `*vol_div`. -/
def parseVol (str : List UInt8) : Int × Int :=
  if 47 ∈ str then
    let volDiv := atoi (str.dropWhile (· ≠ 47)).tail
    let str := str.takeWhile (· ≠ 47)
    (if str.head? = some 42 then -1 else atoi str, volDiv)
  else (if str.head? = some 42 then -1 else atoi str, -1)

/-- The strings that parse_vol gets from `n` calls of strtok; strchr reads through a NULL. -/
def cronTokens : Nat → List UInt8 → Nat → Option (List (List UInt8))
  | 0, _, _ => some []
  | n + 1, mem, s =>
    match strtok [32] mem s with
    | none | some (_, _, none) => none
    | some (mem, save, some token) => do
      let str ← CString.text (mem.drop token)
      return str :: (← cronTokens n mem save)

/-- What the five strings decode into. -/
def cronNode (min hour mday mon wday : List UInt8) : CronNode where
  vol := ⟨(parseVol min).1, (parseVol hour).1, (parseVol mday).1, (parseVol mon).1,
    (parseVol wday).1⟩
  volDiv := ⟨(parseVol min).2, (parseVol hour).2, (parseVol mday).2, (parseVol mon).2,
    (parseVol wday).2⟩

/-- schedulers_register, whose node and whose copy of the text are allocated: what it decodes into
the node. The bytes behind `node->crontab` are those of a struct that g_malloc0 has cleared. -/
def schedulersRegisterNode (crontab : List UInt8) : Option CronNode := do
  let copy ← CString.strncpy (List.replicate 50 0) crontab 50
  let buffer ← CString.text (copy ++ [0])
  match ← cronTokens 5 (buffer ++ [0]) 0 with
  | [min, hour, mday, mon, wday] => return cronNode min hour mday mon wday
  | _ => none

/-- How time_cmp decides each of its five flags; `none` is a division by zero. -/
def cmpField (vol volDiv now : Int) : Option Bool :=
  if volDiv = -1 then some (if vol ≠ -1 then decide (vol = now) else true)
  else if volDiv = 0 then none
  else some (decide (now.tmod volDiv = 0))

def timeCmp (node : CronNode) (tm : Tm) : Option Bool := do
  let fMin ← cmpField node.vol.min node.volDiv.min tm.min
  let fHour ← cmpField node.vol.hour node.volDiv.hour tm.hour
  let fMday ← cmpField node.vol.mday node.volDiv.mday tm.mday
  let fMon ← cmpField node.vol.mon node.volDiv.mon tm.mon
  let fWday ← cmpField node.vol.wday node.volDiv.wday tm.wday
  return fMin && fHour && fMday && fMon && fWday

/-- sprintf's `%d`. -/
def signedText (n : Int) : List UInt8 :=
  if n < 0 then 45 :: Numeral.text (Numeral.ofNat n.natAbs)
  else Numeral.text (Numeral.ofNat n.natAbs)

/-- sprintf of `*/%d * * * *`. -/
def timeoutCrontab (timeout : Int) : List UInt8 :=
  42 :: 47 :: (signedText timeout ++ [32, 42, 32, 42, 32, 42, 32, 42])

/-- The tokens of what schedulers_register keeps of a text. -/
def keptTokens (text : List UInt8) : List (List UInt8) :=
  Tokens.tokens (isDelim [32]) (text.take 50)

section
variable {crontab text : List UInt8} {vol volDiv now : Int} {node : CronNode} {tm : Tm}

theorem cronTokens_eq {mem : List UInt8} {s : Nat} {tokens : List (List UInt8)} (n : Nat)
    (h : parseRest [32] n mem s = some tokens) :
    cronTokens n mem s = if tokens.length = n then some tokens else none := by
  induction n generalizing mem s tokens with
  | zero =>
    rw [parseRest] at h
    cases htoken : mStrtokR [32] mem s with
    | none => simp [htoken] at h
    | some q =>
      obtain ⟨mem', save, token⟩ := q
      cases token with
      | none =>
        simp only [htoken, Option.some.injEq] at h
        subst h
        rfl
      | some token =>
        simp only [htoken, Option.some.injEq] at h
        subst h
        rfl
  | succ n ih =>
    rw [parseRest] at h
    rw [cronTokens, strtok_eq]
    cases htoken : mStrtokR [32] mem s with
    | none => simp [htoken] at h
    | some q =>
      obtain ⟨mem', save, token⟩ := q
      cases token with
      | none =>
        simp only [htoken, Option.some.injEq] at h
        subst h
        rfl
      | some token =>
        simp only [htoken, Option.bind_eq_bind, Option.bind_eq_some_iff] at h ⊢
        obtain ⟨str, hstr, rest, hrest, hsame⟩ := h
        cases hsame
        rw [hstr, Option.bind_some, ih hrest]
        by_cases hlen : rest.length = n
        · simp [hlen]
        · simp [hlen]

/-- What is decoded is the text cut to fifty bytes. -/
theorem schedulersRegisterNode_eq (h : CString.text crontab = some text) :
    schedulersRegisterNode crontab =
      match (keptTokens text).take 5 with
      | [min, hour, mday, mon, wday] => some (cronNode min hour mday mon wday)
      | _ => none := by
  obtain ⟨hs, r, rfl⟩ := CString.eq_append_of_text h
  have hclean : 0 ∉ text.take 50 := fun hzero => hs (List.mem_of_mem_take hzero)
  have hcopy : CString.put (List.replicate 50 0) text 50 ++ [0] =
      text.take 50 ++ 0 :: List.replicate (50 - text.length) 0 := by
    rw [CString.put, List.drop_of_length_le (by simp), List.append_nil, List.append_assoc,
      ← List.replicate_succ', List.replicate_succ]
  have hrest : parseRest [32] 5 (text.take 50 ++ 0 :: []) 0 =
      some ((Tokens.tokens (isDelim [32]) (text.take 50)).take 5) :=
    parseRest_tokens (text.take 50) hclean 5 [] []
  have htokens := cronTokens_eq 5 hrest
  simp only [schedulersRegisterNode, CString.strncpy_append hs, hcopy,
    CString.text_append hclean, Option.bind_eq_bind, Option.bind_some, htokens, keptTokens]
  by_cases hlen : ((Tokens.tokens (isDelim [32]) (text.take 50)).take 5).length = 5
  · rw [if_pos hlen, Option.bind_some]
    rfl
  · rw [if_neg hlen, Option.bind_none]
    split
    · rename_i heq
      rw [heq] at hlen
      exact absurd rfl hlen
    · rfl

theorem parseVol_div (str : List UInt8) : (parseVol str).2 =
    if 47 ∈ str then atoi (str.dropWhile (· ≠ 47)).tail else -1 := by
  rw [parseVol]
  split_ifs <;> rfl

/-- A flag of time_cmp; -1 stands for '*', and for no divisor. -/
def Decides (vol volDiv now : Int) : Prop :=
  volDiv = -1 ∧ (vol = -1 ∨ vol = now) ∨ volDiv ≠ -1 ∧ volDiv ∣ now

instance (vol volDiv now : Int) : Decidable (Decides vol volDiv now) :=
  inferInstanceAs (Decidable (_ ∨ _))

theorem cmpField_eq (vol volDiv now : Int) : cmpField vol volDiv now =
    if volDiv = 0 then none else some (decide (Decides vol volDiv now)) := by
  rw [cmpField]
  by_cases habsent : volDiv = -1
  · subst habsent
    by_cases hvol : vol = -1
    · simp [Decides, hvol]
    · simp [Decides, hvol]
  · rw [if_neg habsent]
    simp [Decides, habsent, Int.dvd_iff_tmod_eq_zero]

/-- Every divisor can be divided by. -/
@[mk_iff] structure CronNode.Divides (node : CronNode) : Prop where
  min : node.volDiv.min ≠ 0
  hour : node.volDiv.hour ≠ 0
  mday : node.volDiv.mday ≠ 0
  mon : node.volDiv.mon ≠ 0
  wday : node.volDiv.wday ≠ 0

/-- Every flag is set. -/
@[mk_iff] structure CronNode.Decides (node : CronNode) (tm : Tm) : Prop where
  min : IPStat.Decides node.vol.min node.volDiv.min tm.min
  hour : IPStat.Decides node.vol.hour node.volDiv.hour tm.hour
  mday : IPStat.Decides node.vol.mday node.volDiv.mday tm.mday
  mon : IPStat.Decides node.vol.mon node.volDiv.mon tm.mon
  wday : IPStat.Decides node.vol.wday node.volDiv.wday tm.wday

instance (node : CronNode) (tm : Tm) : Decidable (node.Decides tm) :=
  decidable_of_iff _ (CronNode.decides_iff node tm).symm

/-- time_cmp evaluates all of its flags before it looks at one. -/
theorem timeCmp_eq_some_iff {res : Bool} : timeCmp node tm = some res ↔
    node.Divides ∧ (res = true ↔ node.Decides tm) := by
  rw [timeCmp, CronNode.divides_iff, CronNode.decides_iff]
  simp only [cmpField_eq]
  by_cases hmin : node.volDiv.min = 0
  · simp [hmin]
  by_cases hhour : node.volDiv.hour = 0
  · simp [hmin, hhour]
  by_cases hmday : node.volDiv.mday = 0
  · simp [hmin, hhour, hmday]
  by_cases hmon : node.volDiv.mon = 0
  · simp [hmin, hhour, hmday, hmon]
  by_cases hwday : node.volDiv.wday = 0
  · simp [hmin, hhour, hmday, hmon, hwday]
  · simp only [hmin, hhour, hmday, hmon, hwday, if_false, Option.bind_eq_bind, Option.bind_some,
      Option.pure_def, Option.some.injEq, ne_eq, not_false_eq_true, and_self, true_and]
    rw [Bool.eq_iff_iff]
    simp only [Bool.and_eq_true, decide_eq_true_eq, and_assoc]
    exact Iff.comm

theorem signedText_bytes (n : Int) : ∀ b ∈ signedText n, b ≠ 32 ∧ b ≠ 0 := by
  have htext {b : UInt8} (hb : b ∈ Numeral.text (Numeral.ofNat n.natAbs)) : b ≠ 32 ∧ b ≠ 0 :=
    ⟨Numeral.ne_of_mem_text (by decide) hb, Numeral.ne_of_mem_text (by decide) hb⟩
  intro b hb
  rw [signedText] at hb
  split_ifs at hb
  · obtain rfl | hb := List.mem_cons.mp hb
    · decide
    · exact htext hb
  · exact htext hb

theorem leading_signedText (n : Int) : Numeral.leading (signedText n) = n := by
  rw [signedText]
  split_ifs with hneg
  · rw [Numeral.leading_neg, Numeral.value_ofNat]
    omega
  · rw [Numeral.leading_text, Numeral.value_ofNat]
    omega

theorem atoi_signedText {n : Int} (hlow : -2147483648 ≤ n) (hhigh : n < 2147483648) :
    atoi (signedText n) = n := by
  rw [atoi, strtol, leading_signedText]
  have hclip : max (-2 ^ 63) (min (2 ^ 63 - 1) n) = n := by omega
  rw [hclip]
  apply Int.bmod_eq_of_le
  · exact hlow
  · exact hhigh

theorem length_signedText_le {n : Int} (hlow : -2147483648 ≤ n) (hhigh : n < 2147483648) :
    (signedText n).length ≤ 11 := by
  have habs : n.natAbs < 10 ^ 10 := by
    have hbound : n.natAbs ≤ 2147483648 := by omega
    omega
  have hlength := Numeral.length_ofNat_le (by decide) habs
  rw [signedText]
  split_ifs
  · rw [List.length_cons, Numeral.text, List.length_map]
    omega
  · rw [Numeral.text, List.length_map]
    omega

theorem keptTokens_timeout {n : Int} (hlow : -2147483648 ≤ n) (hhigh : n < 2147483648) :
    keptTokens (timeoutCrontab n) = [42 :: 47 :: signedText n, [42], [42], [42], [42]] := by
  have hlength := length_signedText_le hlow hhigh
  have hwhole : (timeoutCrontab n).take 50 = timeoutCrontab n := by
    apply List.take_of_length_le
    simp only [timeoutCrontab, List.length_cons, List.length_append, List.length_nil]
    omega
  have hfirst : ∀ b ∈ (42 :: 47 :: signedText n : List UInt8), isDelim [32] b = false := by
    intro b hb
    have hne : b ≠ 32 := by
      obtain rfl | rfl | hb : b = 42 ∨ b = 47 ∨ b ∈ signedText n := by simpa using hb
      · decide
      · decide
      · exact (signedText_bytes n b hb).1
    simpa [isDelim] using hne
  have hrest : Tokens.tokens (isDelim [32]) [42, 32, 42, 32, 42, 32, 42] =
      [[42], [42], [42], [42]] := by decide
  have hsplit := Tokens.tokens_append hfirst (d := 32) (by decide) [42, 32, 42, 32, 42, 32, 42]
  rw [keptTokens, hwhole, timeoutCrontab, ← List.cons_append, ← List.cons_append, hsplit, hrest]
  rfl

theorem exists_five {l : List (List UInt8)} (h : l.length = 5) :
    ∃ min hour mday mon wday, l = [min, hour, mday, mon, wday] := by
  obtain _ | ⟨min, _ | ⟨hour, _ | ⟨mday, _ | ⟨mon, _ | ⟨wday, _ | ⟨next, l⟩⟩⟩⟩⟩⟩ := l
  all_goals simp at h
  exact ⟨min, hour, mday, mon, wday, rfl⟩

/-- The text gets a node, no evaluation of which divides by zero. -/
def RunsSafely (crontab : List UInt8) : Prop :=
  ∃ node, schedulersRegisterNode crontab = some node ∧ ∀ tm, (timeCmp node tm).isSome

/-- A text is safe when its first fifty bytes have five fields, and what follows a '/' in one of
them is a number that is not zero as an int. -/
theorem runsSafely_iff (h : CString.text crontab = some text) : RunsSafely crontab ↔
    5 ≤ (keptTokens text).length ∧ ∀ field ∈ (keptTokens text).take 5,
      47 ∈ field → atoi (field.dropWhile (· ≠ 47)).tail ≠ 0 := by
  have hsafe (node : CronNode) : (∀ tm, (timeCmp node tm).isSome) ↔ node.Divides := by
    constructor
    · intro hall
      obtain ⟨res, hres⟩ := Option.isSome_iff_exists.mp (hall ⟨0, 0, 0, 0, 0⟩)
      exact (timeCmp_eq_some_iff.mp hres).1
    · intro hdivides tm
      exact Option.isSome_iff_exists.mpr ⟨decide (node.Decides tm),
        timeCmp_eq_some_iff.mpr ⟨hdivides, decide_eq_true_iff⟩⟩
  have hfield (str : List UInt8) : (parseVol str).2 ≠ 0 ↔
      (47 ∈ str → atoi (str.dropWhile (· ≠ 47)).tail ≠ 0) := by
    rw [parseVol_div]
    split_ifs with hslash
    · simp [hslash]
    · simp [hslash]
  have hlength : 5 ≤ (keptTokens text).length ↔ ((keptTokens text).take 5).length = 5 := by
    rw [List.length_take]
    omega
  rw [RunsSafely, schedulersRegisterNode_eq h, hlength]
  split
  · rename_i min hour mday mon wday htokens
    simp only [Option.some.injEq, exists_eq_left', hsafe, CronNode.divides_iff, cronNode, hfield,
      htokens, List.length_cons, List.length_nil, List.forall_mem_cons, true_and]
    simp
  · rename_i hshort
    refine iff_of_false (by simp) ?_
    intro hfive
    obtain ⟨min, hour, mday, mon, wday, heq⟩ := exists_five hfive.1
    exact hshort min hour mday mon wday heq

theorem runsSafely_timeout {timeout : Int} (hlow : -2147483648 ≤ timeout)
    (hhigh : timeout < 2147483648) :
    RunsSafely (timeoutCrontab timeout ++ [0]) ↔ timeout ≠ 0 := by
  have hclean : 0 ∉ timeoutCrontab timeout := by
    intro hzero
    have hmem : (0 : UInt8) ∈ signedText timeout := by simpa [timeoutCrontab] using hzero
    exact (signedText_bytes timeout 0 hmem).2 rfl
  rw [runsSafely_iff (CString.text_append hclean []), keptTokens_timeout hlow hhigh]
  simp [atoi_signedText hlow hhigh]

end

/-- The scheduler survives a text of five fields whose divisors are not zero, and every timeout but
zero. -/
theorem schedule_safe_iff (crontab text : List UInt8) (timeout : Int)
    (h : CString.text crontab = some text) (hlow : -2147483648 ≤ timeout)
    (hhigh : timeout < 2147483648) :
    (RunsSafely crontab ↔ 5 ≤ (keptTokens text).length ∧ ∀ field ∈ (keptTokens text).take 5,
      47 ∈ field → atoi (field.dropWhile (· ≠ 47)).tail ≠ 0) ∧
    (RunsSafely (timeoutCrontab timeout ++ [0]) ↔ timeout ≠ 0) :=
  ⟨runsSafely_iff h, runsSafely_timeout hlow hhigh⟩

/-- `0 0 * * 1`, and a timeout of five minutes. -/
def mondays : List UInt8 := [48, 32, 48, 32, 42, 32, 42, 32, 49]

theorem schedule_safe_mondays :
    (RunsSafely (mondays ++ [0]) ↔ 5 ≤ (keptTokens mondays).length ∧
      ∀ field ∈ (keptTokens mondays).take 5,
        47 ∈ field → atoi (field.dropWhile (· ≠ 47)).tail ≠ 0) ∧
    (RunsSafely (timeoutCrontab 5 ++ [0]) ↔ (5 : Int) ≠ 0) :=
  schedule_safe_iff (mondays ++ [0]) mondays 5 (by decide) (by decide) (by decide)

/-- With a timeout of zero the text is accepted, and no time can be compared with its node. -/
theorem schedule_zero_divides : (∃ node, schedulersRegisterNode (timeoutCrontab 0 ++ [0]) =
      some node ∧ ∀ tm, timeCmp node tm = none) ∧
    ¬ RunsSafely (timeoutCrontab 0 ++ [0]) := by
  have hnode : schedulersRegisterNode (timeoutCrontab 0 ++ [0]) =
      some ⟨⟨-1, -1, -1, -1, -1⟩, ⟨0, -1, -1, -1, -1⟩⟩ := by decide
  refine ⟨⟨_, hnode, fun tm => rfl⟩, ?_⟩
  intro hsafe
  obtain ⟨node, hsome, htime⟩ := hsafe
  cases hnode.symm.trans hsome
  have hnone := htime ⟨0, 0, 0, 0, 0⟩
  cases hnone

end IPStat
