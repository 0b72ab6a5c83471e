import IPStat.Inet
import IPStat.Lib.CString
import IPStat.Lib.Numeral
import Mathlib.Data.List.Find

namespace IPStat

def strtol (s : List UInt8) : Int := max (-2 ^ 63) (min (2 ^ 63 - 1) (Numeral.leading s))

def atol (s : List UInt8) : Int := strtol s

def atoi (s : List UInt8) : Int := Int.bmod (strtol s) (2 ^ 32)

/-- A variable by its CF_TYPE, a string variable being the memory it is in. -/
inductive CfValue where
  | string (memory : List UInt8)
  | int (n : Int)
  | long (n : Int)
  deriving DecidableEq, Repr

/-- CONF_PARSER, with the variable it points to. -/
structure ConfParser where
  name : List UInt8
  size : Nat
  vol : CfValue
  defvol : List UInt8
  nameNoNul : 0 ∉ name
  defvolNoNul : 0 ∉ defvol

/-- The switch over the types; the two of conf_parse differ in the call for CF_TYPE_LONG. -/
def ConfParser.assign (toLong : List UInt8 → Int) (text : List UInt8) (this : ConfParser) :
    ConfParser :=
  { this with vol := match this.vol with
      | .string memory => .string (CString.put memory text this.size)
      | .int _ => .int (atoi text)
      | .long _ => .long (toLong text) }

/-- What fgets returns for a buffer of 1024 bytes, call after call. -/
def fgets : List UInt8 → List UInt8 → List (List UInt8)
  | acc, [] => if acc = [] then [] else [acc]
  | acc, b :: file =>
    if b = 10 ∨ acc.length + 1 = 1023 then (acc ++ [b]) :: fgets [] file
    else fgets (acc ++ [b]) file

/-- Key and value, if the string has a '='. -/
def keyValue (text : List UInt8) : Option (List UInt8 × List UInt8) :=
  if 61 ∈ text then some (text.takeWhile (· ≠ 61), (text.dropWhile (· ≠ 61)).tail) else none

/-- What a buffer of fgets sets; the string in it ends at a NUL, or at the newline. -/
def bufferSets (buffer : List UInt8) : Option (List UInt8 × List UInt8) :=
  match buffer.head? with
  | none => none
  | some b =>
    if b ≠ 0 ∧ b ≠ 35 ∧ b ≠ 10 then keyValue (buffer.takeWhile fun b => b ≠ 0 ∧ b ≠ 10)
    else none

def ConfParser.matchesKey (this : ConfParser) (key : List UInt8) : Bool :=
  strncasecmpEq this.name.length this.name key

/-- The loop over the table for one setting. -/
def setTable (table : List ConfParser) (s : List UInt8 × List UInt8) : List ConfParser :=
  table.map fun this => if this.matchesKey s.1 then this.assign atoi s.2 else this

/-- conf_parse: the outer `none` is a missing st_conf_api, the inner one a file that does not
open. -/
def confParse (conf : Option (Option (List UInt8))) (table : List ConfParser) :
    List ConfParser × Bool :=
  match conf with
  | none => (table, false)
  | some file =>
    let table := table.map fun this => this.assign atol this.defvol
    match file with
    | none => (table, false)
    | some file => (((fgets [] file).filterMap bufferSets).foldl setTable table, true)

/-- The lines of a file, without their newlines. -/
def fileLines : List UInt8 → List UInt8 → List (List UInt8)
  | acc, [] => if acc = [] then [] else [acc]
  | acc, b :: file => if b = 10 then acc :: fileLines [] file else fileLines (acc ++ [b]) file

/-- What a line is meant to set. -/
def lineSets (line : List UInt8) : Option (List UInt8 × List UInt8) :=
  if line.head? = some 35 then none else keyValue line

/-- A key is the variable's name, in whatever case. -/
def ConfParser.named (this : ConfParser) (key : List UInt8) : Bool :=
  this.name.map toLower = key.map toLower

/-- The last value among settings whose key is as asked. -/
def lastSetting (asked : List UInt8 → Bool) (settings : List (List UInt8 × List UInt8)) :
    Option (List UInt8) :=
  (settings.reverse.find? fun s => asked s.1).map Prod.snd

/-- The value in the last line for the variable. -/
def ConfParser.wanted (this : ConfParser) (file : List UInt8) : Option (List UInt8) :=
  lastSetting this.named ((fileLines [] file).filterMap lineSets)

/-- The value in the last buffer whose key begins with the variable's name. -/
def ConfParser.found (this : ConfParser) (file : List UInt8) : Option (List UInt8) :=
  lastSetting this.matchesKey ((fgets [] file).filterMap bufferSets)

/-- A variable holds a text as its type has it. -/
def CfValue.Holds (text : List UInt8) : CfValue → Prop
  | .string memory => CString.text memory = some text
  | .int n => n = atoi text
  | .long n => n = atol text

instance (text : List UInt8) : ∀ v : CfValue, Decidable (v.Holds text)
  | .string memory => inferInstanceAs (Decidable (CString.text memory = some text))
  | .int n => inferInstanceAs (Decidable (n = atoi text))
  | .long n => inferInstanceAs (Decidable (n = atol text))

/-- The value found is as good as the one wanted: it is the same string and fits, or runs on into
the bytes behind the variable as it should; it is the same int; or its int is the wanted long. -/
def ConfParser.Agrees (this : ConfParser) (file : List UInt8) : Prop :=
  let found := (this.found file).getD this.defvol
  let wanted := (this.wanted file).getD this.defvol
  match this.vol with
  | .string memory => found.length < this.size ∧ found = wanted ∨
      this.size ≤ found.length ∧ ∃ rest, CString.text (memory.drop this.size) = some rest ∧
        wanted = found.take this.size ++ rest
  | .int _ => atoi found = atoi wanted
  | .long _ => ((this.found file).elim (atol this.defvol) atoi) = atol wanted

section
variable {this : ConfParser} {file : List UInt8}

theorem assign_assign (toLong toLong' : List UInt8 → Int) (text text' : List UInt8) :
    (this.assign toLong text).assign toLong' text' = this.assign toLong' text' := by
  cases hv : this.vol with
  | string memory => simp [ConfParser.assign, hv]
  | int n => simp [ConfParser.assign, hv]
  | long n => simp [ConfParser.assign, hv]

theorem lastSetting_concat (asked : List UInt8 → Bool) (settings : List (List UInt8 × List UInt8))
    (s : List UInt8 × List UInt8) : lastSetting asked (settings ++ [s]) =
      if asked s.1 then some s.2 else lastSetting asked settings := by
  cases hs : asked s.1 with
  | true => simp [lastSetting, hs]
  | false => simp [lastSetting, hs]

theorem lastSetting_congr {asked asked' : List UInt8 → Bool}
    {settings : List (List UInt8 × List UInt8)} (h : ∀ s ∈ settings, asked s.1 = asked' s.1) :
    lastSetting asked settings = lastSetting asked' settings := by
  have hfind := List.find?_congr (l := settings.reverse) fun s hs => h s (List.mem_reverse.mp hs)
  rw [lastSetting, lastSetting, hfind]

/-- Of the settings for a variable the last one stays. -/
theorem foldl_setTable (settings : List (List UInt8 × List UInt8)) (table : List ConfParser) :
    settings.foldl setTable table = table.map fun this =>
      match lastSetting this.matchesKey settings with
      | some text => this.assign atoi text
      | none => this := by
  induction settings using List.reverseRecOn with
  | nil => simp [lastSetting]
  | append_singleton settings s ih =>
    rw [List.foldl_concat, ih, setTable, List.map_map]
    apply List.map_congr_left
    intro this _
    have hkey (text : List UInt8) :
        (this.assign atoi text).matchesKey s.1 = this.matchesKey s.1 := rfl
    rw [lastSetting_concat]
    cases hl : lastSetting this.matchesKey settings with
    | none => cases hs : this.matchesKey s.1 <;> simp [hl, hs]
    | some text => cases hs : this.matchesKey s.1 <;> simp [hl, hs, hkey, assign_assign]

theorem bufferSets_noNul {buffer : List UInt8} {s : List UInt8 × List UInt8}
    (h : bufferSets buffer = some s) : 0 ∉ s.2 := by
  unfold bufferSets at h
  split at h
  · cases h
  · split_ifs at h
    unfold keyValue at h
    split_ifs at h
    cases h
    intro hzero
    have htext := (List.dropWhile_suffix _).mem (List.mem_of_mem_tail hzero)
    have hkeep := List.mem_takeWhile_imp htext
    simp at hkeep

theorem ConfParser.found_noNul (this : ConfParser) (file : List UInt8) :
    0 ∉ (this.found file).getD this.defvol := by
  cases hf : this.found file with
  | none => exact this.defvolNoNul
  | some text =>
    obtain ⟨s, hs, rfl⟩ := Option.map_eq_some_iff.mp hf
    have hin := List.mem_reverse.mp (List.mem_of_find?_eq_some hs)
    obtain ⟨buffer, -, hset⟩ := List.mem_filterMap.mp hin
    exact bufferSets_noNul hset

/-- What conf_parse makes of one entry of its table. -/
theorem confParse_table (file : List UInt8) (table : List ConfParser) :
    (confParse (some (some file)) table).1 = table.map fun this =>
      match this.found file with
      | some text => this.assign atoi text
      | none => this.assign atol this.defvol := by
  rw [confParse, foldl_setTable, List.map_map]
  apply List.map_congr_left
  intro this _
  have hfound : lastSetting (this.assign atol this.defvol).matchesKey
      ((fgets [] file).filterMap bufferSets) = this.found file := rfl
  rw [Function.comp_apply, hfound]
  cases this.found file with
  | none => rfl
  | some text => exact assign_assign atol atoi this.defvol text

theorem ConfParser.holds_iff (this : ConfParser) (file : List UInt8) :
    (match this.found file with
      | some text => this.assign atoi text
      | none => this.assign atol this.defvol).vol.Holds ((this.wanted file).getD this.defvol) ↔
      this.Agrees file := by
  have hclean := this.found_noNul file
  unfold ConfParser.Agrees
  cases hv : this.vol with
  | string memory =>
    refine Iff.trans ?_ (CString.text_put_iff hclean memory this.size)
    cases hf : this.found file with
    | none => simp [ConfParser.assign, hv, CfValue.Holds]
    | some text => simp [ConfParser.assign, hv, CfValue.Holds]
  | int n =>
    cases hf : this.found file with
    | none => simp [ConfParser.assign, hv, CfValue.Holds]
    | some text => simp [ConfParser.assign, hv, CfValue.Holds]
  | long n =>
    cases hf : this.found file with
    | none => simp [ConfParser.assign, hv, CfValue.Holds]
    | some text => simp [ConfParser.assign, hv, CfValue.Holds]

theorem toLower_eq_zero {b : UInt8} (h : toLower b = 0) : b = 0 := by
  unfold toLower at h
  split_ifs at h with hletter
  · have hle := UInt8.le_iff_toNat_le.mp hletter.1
    have hge := UInt8.le_iff_toNat_le.mp hletter.2
    have hzero := congrArg UInt8.toNat h
    have hsum : (b + 32).toNat = b.toNat + 32 := by
      rw [UInt8.toNat_add]
      apply Nat.mod_eq_of_lt
      have hbound : b.toNat ≤ 90 := hge
      show b.toNat + 32 < 256
      omega
    rw [hsum] at hzero
    exact absurd hzero (by simp)
  · exact h

/-- A key matches that merely begins with the name. -/
theorem strncasecmpEq_name_iff {name key : List UInt8} (hname : 0 ∉ name) :
    strncasecmpEq name.length name key = true ↔ name.map toLower <+: key.map toLower := by
  induction name generalizing key with
  | nil => simp [strncasecmpEq]
  | cons b name ih =>
    have hb : b ≠ 0 := fun h => hname (h ▸ List.mem_cons_self)
    have htail : 0 ∉ name := fun h => hname (List.mem_cons_of_mem b h)
    have hlower : toLower b ≠ 0 := fun h => hb (toLower_eq_zero h)
    cases key with
    | nil =>
      have hzero : toLower 0 = 0 := rfl
      simp [strncasecmpEq, hzero, hlower]
    | cons c key =>
      by_cases hbc : toLower b = toLower c
      · simp [strncasecmpEq, hbc, hb, ih htail]
      · simp [strncasecmpEq, hbc]

/-- A file with lines that a buffer holds, whose keys do not merely begin with the name, and whose
last value for the variable suits it. -/
structure ConfParser.Plain (this : ConfParser) (file : List UInt8) : Prop where
  noNul : 0 ∉ file
  short : ∀ line ∈ fileLines [] file, line.length < 1023
  whole : ∀ s ∈ (fileLines [] file).filterMap lineSets, this.matchesKey s.1 = true →
    this.named s.1 = true
  suits : match this.vol with
    | .string _ => ((this.wanted file).getD this.defvol).length < this.size
    | .int _ => True
    | .long _ => ∀ text, this.wanted file = some text → atoi text = atol text

theorem bufferSets_line {line : List UInt8} (h : ∀ b ∈ line, b ≠ 0 ∧ b ≠ 10) (rest : List UInt8)
    (hrest : rest = [] ∧ line ≠ [] ∨ rest = [10]) : bufferSets (line ++ rest) = lineSets line := by
  have hend : (rest.takeWhile fun b => decide (b ≠ 0 ∧ b ≠ 10)) = [] := by
    obtain ⟨rfl, -⟩ | rfl := hrest
    · rfl
    · rfl
  have htext : ((line ++ rest).takeWhile fun b => decide (b ≠ 0 ∧ b ≠ 10)) = line := by
    rw [List.takeWhile_append_of_pos (by simpa using h), hend, List.append_nil]
  cases line with
  | nil =>
    obtain ⟨-, hne⟩ | rfl := hrest
    · exact absurd rfl hne
    · rfl
  | cons b line =>
    obtain ⟨hb, hnl⟩ := h b List.mem_cons_self
    rw [bufferSets, htext]
    by_cases hhash : b = 35
    · simp [lineSets, hhash]
    · simp [lineSets, hb, hnl, hhash]

theorem fileLines_long {acc : List UInt8} (hacc : acc ≠ []) (file : List UInt8) :
    ∃ line ∈ fileLines acc file, acc.length ≤ line.length := by
  induction file generalizing acc with
  | nil => exact ⟨acc, by simp [fileLines, hacc], Nat.le_refl _⟩
  | cons b file ih =>
    by_cases hb : b = 10
    · exact ⟨acc, by simp [fileLines, hb], Nat.le_refl _⟩
    · have hne : acc ++ [b] ≠ [] := by simp
      obtain ⟨line, hm, hle⟩ := ih hne
      rw [List.length_append, List.length_singleton] at hle
      exact ⟨line, by simpa [fileLines, hb] using hm, by omega⟩

/-- The buffers set what the lines are meant to, when none is cut. -/
theorem fgets_sets {acc : List UInt8} (hacc : ∀ b ∈ acc, b ≠ 0 ∧ b ≠ 10) (hnul : 0 ∉ file)
    (hshort : ∀ line ∈ fileLines acc file, line.length < 1023) :
    (fgets acc file).filterMap bufferSets = (fileLines acc file).filterMap lineSets := by
  induction file generalizing acc with
  | nil =>
    by_cases hempty : acc = []
    · simp [fgets, fileLines, hempty]
    · have hlast := bufferSets_line hacc [] (.inl ⟨rfl, hempty⟩)
      rw [List.append_nil] at hlast
      simp [fgets, fileLines, hempty, List.filterMap_cons, hlast]
  | cons b file ih =>
    have hb : b ≠ 0 := fun h => hnul (h ▸ List.mem_cons_self)
    have hnul' : 0 ∉ file := fun h => hnul (List.mem_cons_of_mem b h)
    by_cases hnl : b = 10
    · subst hnl
      have hline := bufferSets_line hacc [10] (.inr rfl)
      have hrest : (fgets [] file).filterMap bufferSets =
          (fileLines [] file).filterMap lineSets :=
        ih (by simp) hnul' fun line hm => hshort line (by simp [fileLines, hm])
      simp [fgets, fileLines, List.filterMap_cons, hline, hrest]
    · have hlines : fileLines acc (b :: file) = fileLines (acc ++ [b]) file := by
        simp [fileLines, hnl]
      rw [hlines] at hshort ⊢
      have hne : acc ++ [b] ≠ [] := by simp
      obtain ⟨line, hm, hle⟩ := fileLines_long hne file
      have hroom : acc.length + 1 ≠ 1023 := by
        have hlt := hshort line hm
        rw [List.length_append, List.length_singleton] at hle
        omega
      have hacc' : ∀ c ∈ acc ++ [b], c ≠ 0 ∧ c ≠ 10 := by
        intro c hc
        obtain hold | hnew := List.mem_append.mp hc
        · exact hacc c hold
        · rw [List.mem_singleton.mp hnew]
          exact ⟨hb, hnl⟩
      rw [fgets, if_neg (by simp [hnl, hroom])]
      exact ih hacc' hnul' hshort

/-- On plain files the parser does what it is meant to. -/
theorem ConfParser.Plain.agrees (h : this.Plain file) : this.Agrees file := by
  have hsets : (fgets [] file).filterMap bufferSets = (fileLines [] file).filterMap lineSets :=
    fgets_sets (by simp) h.noNul h.short
  have hsame : this.found file = this.wanted file := by
    rw [ConfParser.found, ConfParser.wanted, hsets]
    apply lastSetting_congr
    intro s hs
    have hwhole := h.whole s hs
    rw [Bool.eq_iff_iff]
    refine ⟨hwhole, fun hnamed => ?_⟩
    have hkey : this.name.map toLower = s.1.map toLower := of_decide_eq_true hnamed
    exact (strncasecmpEq_name_iff this.nameNoNul).mpr (hkey ▸ List.prefix_refl _)
  have hsuits := h.suits
  unfold ConfParser.Agrees
  rw [hsame]
  cases hv : this.vol with
  | string memory =>
    rw [hv] at hsuits
    exact .inl ⟨hsuits, rfl⟩
  | int n => rfl
  | long n =>
    rw [hv] at hsuits
    cases hw : this.wanted file with
    | none => rfl
    | some text => exact hsuits text hw

end

/-- For every file and table: after conf_parse each variable holds the value of its last line, or
its default, exactly when for each of them the value found agrees with that one. -/
theorem conf_parse_exact_iff (file : List UInt8) (table : List ConfParser) :
    List.Forall₂ (fun this this' : ConfParser =>
        this'.vol.Holds ((this.wanted file).getD this.defvol))
      table (confParse (some (some file)) table).1 ↔ ∀ this ∈ table, this.Agrees file := by
  rw [confParse_table, List.forall₂_map_right_iff, List.forall₂_same]
  constructor
  · intro h this hm
    exact (this.holds_iff file).mp (h this hm)
  · intro h this hm
    exact (this.holds_iff file).mpr (h this hm)

/-- The table of main.c. -/
def mainConf : ConfParser where
  name := [100, 101, 98, 117, 103]
  size := 0
  vol := .int 1
  defvol := [48]
  nameNoNul := by decide
  defvolNoNul := by decide

/-- debug_console=1 -/
def consoleLine : List UInt8 :=
  [100, 101, 98, 117, 103, 95, 99, 111, 110, 115, 111, 108, 101, 61, 49, 10]

/-- The line for the console's option sets the daemon's debug. -/
theorem debug_set_by_console : mainConf.wanted consoleLine = none ∧
    (confParse (some (some consoleLine)) [mainConf]).1.map ConfParser.vol = [.int 1] ∧
    ¬ List.Forall₂ (fun this this' : ConfParser =>
        this'.vol.Holds ((this.wanted consoleLine).getD this.defvol))
      [mainConf] (confParse (some (some consoleLine)) [mainConf]).1 := by
  refine ⟨by decide, by decide, ?_⟩
  intro h
  have hholds := (List.forall₂_cons.mp h).1
  exact absurd hholds (by decide)

end IPStat
