import IPStat.Lib.CString
import IPStat.Lib.Run

namespace IPStat

/-- XML_NODE, its two fields being blocks of XML_LENGTH_KEY and XML_LENGTH_VALUE bytes. -/
structure XmlNode where
  key : List UInt8
  value : List UInt8
  deriving DecidableEq, Repr

/-- tree_addnode; `fresh` is what its malloc gives, `none` when it fails. -/
def treeAddnode (fresh : Option XmlNode) (name value : List UInt8) (list : List XmlNode) :
    Option (List XmlNode × Bool) :=
  match fresh with
  | none => some (list, false)
  | some node => do
    let key ← CString.strncpy node.key name 49
    let value ← CString.strncpy node.value value 254
    return (list ++ [⟨key, value⟩], true)

/-- The body of tree_getxml's loop: sprintf into 1024 bytes, and strcat onto the string in the
caller's `size` bytes. -/
def traverse (size : Nat) (ptr : List UInt8) (node : XmlNode) : Option (List UInt8) := do
  let key ← CString.text node.key
  let value ← CString.text node.value
  let buffer := key ++ 61 :: value ++ [10]
  if buffer.length < 1024 ∧ ptr.length + buffer.length < size then return ptr ++ buffer
  else none

def treeGetxml (size : Nat) (list : List XmlNode) : Option (List UInt8) :=
  Run.exec (traverse size) [] list

/-- m_strtok_r from place `s` of a buffer: the buffer, the next place and the token's. -/
def mStrtokR (delim mem : List UInt8) (s : Nat) : Option (List UInt8 × Nat × Option Nat) := do
  let token := s + (← CString.strspn delim (mem.drop s))
  if mem[token]? = some 0 then return (mem, token, none)
  else
    match ← CString.strpbrk delim (mem.drop token) with
    | none => return (mem, token + (← CString.text (mem.drop token)).length, some token)
    | some k => return (mem.set (token + k) 0, token + k + 1, some token)

/-- The loop of parse_arg, with `room` tokens to come until it breaks. -/
def parseRest (delim : List UInt8) : Nat → List UInt8 → Nat → Option (List (List UInt8))
  | room, mem, s =>
    match mStrtokR delim mem s with
    | none => none
    | some (_, _, none) => some []
    | some (mem, save, some token) =>
      match room with
      | 0 => some []
      | room + 1 => do
        let arg ← CString.text (mem.drop token)
        return arg :: (← parseRest delim room mem save)

/-- parse_arg: the duplicates of at most `maxTok + 1` tokens. -/
def parseArg (mem : List UInt8) (maxTok : Nat) (delim : List UInt8) :
    Option (List (List UInt8)) :=
  match mem with
  | [] => none
  | b :: _ => if b = 0 then some [] else parseRest delim (maxTok + 1) mem 0

/-- The body of xpath_init's loop: `tmp` is its buffer, `fresh` what malloc gives for the node. -/
def decodeToken (tmp : List UInt8) (fresh : Option XmlNode) (arg : List UInt8) :
    Option (List UInt8 × Option XmlNode) := do
  let tmp ← CString.strncpy tmp (arg ++ [0]) 2047
  match ← CString.strpbrk [61] tmp with
  | none => return (tmp, none)
  | some t =>
    let tmp := tmp.set t 0
    match fresh with
    | none => return (tmp, none)
    | some node =>
      let key ← CString.strncpy node.key tmp 49
      let value ← CString.strncpy node.value (tmp.drop (t + 1)) 254
      return (tmp, some ⟨key, value⟩)

def decodeTokens (fresh : Nat → Option XmlNode) :
    Nat → List UInt8 → List (List UInt8) → Option (List XmlNode)
  | _, _, [] => some []
  | i, tmp, arg :: argv => do
    let (tmp, node) ← decodeToken tmp (fresh i) arg
    let list ← decodeTokens fresh (i + 1) tmp argv
    return node.toList ++ list

/-- What malloc and the stack hold before xpath_init writes to them: the block for the text, the
buffer of XML_LENGTH bytes, and a node for each token. -/
structure Garbage where
  block : Nat → UInt8
  tmp : List UInt8
  node : Nat → Option XmlNode

/-- xpath_init on a string: the strncpy leaves the last byte of the block as it was. -/
def xpathInit (garbage : Garbage) (buffer : List UInt8) : Option (List XmlNode) := do
  let block := (List.range (buffer.length + 1)).map garbage.block
  let ptr ← CString.strncpy block (buffer ++ [0]) buffer.length
  let argv ← parseArg ptr 49 [10]
  decodeTokens garbage.node 0 garbage.tmp argv

/-- xpath_get_param; `stack` is what its node holds before. -/
def xpathGetParam (stack : XmlNode) (list : List XmlNode) (key : List UInt8) (sizeValue : Nat) :
    Option (List UInt8 × Bool) := do
  let probe ← CString.strncpy stack.key (key ++ [0]) 49
  let value := List.replicate sizeValue 0
  match list.find? fun node => CString.strncmpEq 49 node.key probe with
  | none => return (value, false)
  | some node =>
    if sizeValue = 0 then none
    else return (← CString.strncpy value node.value (sizeValue - 1), true)

/-- A pair that a message can carry. -/
structure Param where
  key : List UInt8
  value : List UInt8
  keyNonempty : key ≠ []
  keyClean : ∀ b ∈ key, b ≠ 0 ∧ b ≠ 61 ∧ b ≠ 10
  keyFits : key.length < 49
  valueClean : ∀ b ∈ value, b ≠ 0 ∧ b ≠ 10
  valueFits : value.length < 254

def Param.line (p : Param) : List UInt8 := p.key ++ 61 :: p.value

/-- The lines of a message, as traverse writes them. -/
def linesText (ls : List (List UInt8)) : List UInt8 := ls.flatMap fun l => l ++ [10]

def encoded (ps : List Param) : List UInt8 := linesText (ps.map Param.line)

/-- The calls of tree_addnode, every malloc of which gives a node. -/
def treeBuild (fresh : Nat → XmlNode) : Nat → List Param → List XmlNode → Option (List XmlNode)
  | _, [], list => some list
  | i, p :: ps, list => do
    let (list, _) ← treeAddnode (some (fresh i)) (p.key ++ [0]) (p.value ++ [0]) list
    treeBuild fresh (i + 1) ps list

/-- What xpath_get_param answers on a decoded message, for any string and any buffer that has
room for the value. -/
def Decoded (ps : List Param) (list : List XmlNode) : Prop :=
  ∀ (key : List UInt8) (stack : XmlNode) (size : Nat), 0 ∉ key →
    match ps.find? fun p => p.key = key with
    | some p => p.value.length < size → ∃ value,
        xpathGetParam stack list key size = some (value, true) ∧ CString.text value = some p.value
    | none => xpathGetParam stack list key size = some (List.replicate size 0, false)

/-- The message is encoded into `size` bytes, decoded, and read as it was. -/
def RoundTrips (ps : List Param) (size : Nat) (fresh : Nat → XmlNode) (garbage : Garbage) : Prop :=
  ∃ tree buffer list, treeBuild fresh 0 ps [] = some tree ∧ treeGetxml size tree = some buffer ∧
    xpathInit garbage buffer = some list ∧ Decoded ps list

/-- A node holds a pair, behind whose strings anything may stand. -/
def Holds (node : XmlNode) (p : Param) : Prop :=
  ∃ r r', node = ⟨p.key ++ 0 :: r, p.value ++ 0 :: r'⟩

/-- A token of a message: some bytes, with no NUL and no newline. -/
def IsLine (l : List UInt8) : Prop := l ≠ [] ∧ ∀ b ∈ l, b ≠ 0 ∧ b ∉ [(10 : UInt8)]

section
variable {p : Param} {ps : List Param}

theorem Param.key_noNul (p : Param) : 0 ∉ p.key := fun h => (p.keyClean 0 h).1 rfl

theorem Param.value_noNul (p : Param) : 0 ∉ p.value := fun h => (p.valueClean 0 h).1 rfl

theorem Param.isLine (p : Param) : IsLine p.line := by
  constructor
  · simp [Param.line]
  · intro b hb
    rw [Param.line, List.mem_append, List.mem_cons] at hb
    obtain hkey | rfl | hvalue := hb
    · have hclean := p.keyClean b hkey
      simp [hclean.1, hclean.2.2]
    · decide
    · have hclean := p.valueClean b hvalue
      simp [hclean.1, hclean.2]

theorem treeAddnode_holds (node : XmlNode) (p : Param) (list : List XmlNode) : ∃ node',
    treeAddnode (some node) (p.key ++ [0]) (p.value ++ [0]) list = some (list ++ [node'], true) ∧
      Holds node' p := by
  obtain ⟨r, hkey⟩ := CString.strncpy_fits p.key_noNul p.keyFits node.key []
  obtain ⟨r', hvalue⟩ := CString.strncpy_fits p.value_noNul p.valueFits node.value []
  exact ⟨_, by simp [treeAddnode, hkey, hvalue], r, r', rfl⟩

theorem treeBuild_holds (fresh : Nat → XmlNode) (i : Nat) (ps : List Param)
    (list : List XmlNode) : ∃ list', treeBuild fresh i ps list = some (list ++ list') ∧
      List.Forall₂ Holds list' ps := by
  induction ps generalizing i list with
  | nil => exact ⟨[], by simp [treeBuild], List.Forall₂.nil⟩
  | cons p ps ih =>
    obtain ⟨node, hadd, hnode⟩ := treeAddnode_holds (fresh i) p list
    obtain ⟨list', hrest, hholds⟩ := ih (i + 1) (list ++ [node])
    refine ⟨node :: list', ?_, List.Forall₂.cons hnode hholds⟩
    rw [treeBuild, hadd]
    show treeBuild fresh (i + 1) ps (list ++ [node]) = _
    rw [hrest, List.append_assoc]
    rfl

theorem encoded_cons (p : Param) (ps : List Param) :
    encoded (p :: ps) = p.line ++ [10] ++ encoded ps := by
  simp [encoded, linesText]

theorem traverse_holds {node : XmlNode} {size : Nat} {ptr : List UInt8} (h : Holds node p)
    (hsize : ptr.length + (p.line ++ [10]).length < size) :
    traverse size ptr node = some (ptr ++ (p.line ++ [10])) := by
  obtain ⟨r, r', rfl⟩ := h
  have hkey := p.keyFits
  have hvalue := p.valueFits
  have hlength : (p.key ++ 61 :: p.value ++ [10]).length < 1024 := by
    simp only [List.length_append, List.length_cons, List.length_nil]
    omega
  have hroom : ptr.length + (p.key ++ 61 :: p.value ++ [10]).length < size := hsize
  simp only [traverse, CString.text_append p.key_noNul, CString.text_append p.value_noNul,
    Option.bind_eq_bind, Option.bind_some, if_pos (And.intro hlength hroom), Param.line]
  rfl

theorem treeGetxml_holds {list : List XmlNode} (h : List.Forall₂ Holds list ps) {size : Nat}
    (ptr : List UInt8) (hsize : ptr.length + (encoded ps).length < size) :
    Run.exec (traverse size) ptr list = some (ptr ++ encoded ps) := by
  induction h generalizing ptr with
  | nil => simp [encoded, linesText]
  | @cons node p list ps hnode _ ih =>
    rw [encoded_cons, List.length_append] at hsize
    have hfirst : traverse size ptr node = some (ptr ++ (p.line ++ [10])) :=
      traverse_holds hnode (by omega)
    rw [Run.exec_cons node list hfirst, ih _ (by rw [List.length_append]; omega), encoded_cons]
    simp

/-- m_strtok_r at the start of a token cuts it off, and goes on behind the delimiter. -/
theorem mStrtokR_token {delim tok : List UInt8} {d : UInt8} (hne : tok ≠ [])
    (htok : ∀ b ∈ tok, b ≠ 0 ∧ b ∉ delim) (hd : d ∈ delim) (hzero : d ≠ 0)
    (before r : List UInt8) :
    mStrtokR delim (before ++ (tok ++ d :: r)) before.length =
      some (before ++ (tok ++ 0 :: r), before.length + tok.length + 1, some before.length) := by
  obtain ⟨b, tail, rfl⟩ := List.exists_cons_of_ne_nil hne
  have hb := htok b List.mem_cons_self
  have hspan : CString.strspn delim ((b :: tail) ++ d :: r) = some 0 :=
    CString.strspn_zero (.inr hb.2) _
  have hbreak := CString.strpbrk_append htok hzero hd r
  have hset : (before ++ ((b :: tail) ++ d :: r)).set (before.length + (b :: tail).length) 0 =
      before ++ ((b :: tail) ++ 0 :: r) := by
    simp
  have hfirst : (before ++ ((b :: tail) ++ d :: r))[before.length]? = some b := by simp
  simp only [mStrtokR, List.drop_left, hspan, Option.bind_eq_bind, Option.bind_some,
    Nat.add_zero, hfirst, Option.some.injEq, hb.1, if_false, hbreak, hset]
  rfl

/-- At the last byte of the block it reads on, unless the byte is NUL. -/
theorem mStrtokR_end (before : List UInt8) (g : UInt8) :
    mStrtokR [10] (before ++ [g]) before.length =
      if g = 0 then some (before ++ [g], before.length, none) else none := by
  have hfirst : (before ++ [g])[before.length]? = some g := by simp
  by_cases hg : g = 0
  · subst hg
    have hspan : CString.strspn [10] [0] = some 0 := CString.strspn_zero (.inl rfl) []
    simp [mStrtokR, hspan]
  · by_cases hline : g = 10
    · subst hline
      have hspan : CString.strspn [10] [10] = none := by decide
      simp [mStrtokR, hspan]
    · have hspan : CString.strspn [10] [g] = some 0 :=
        CString.strspn_zero (.inr (by simpa using hline)) []
      have hbreak : CString.strpbrk [10] [g] = none := by simp [CString.strpbrk, hg, hline]
      simp [mStrtokR, hspan, hbreak, hg]

theorem linesText_cons (l : List UInt8) (ls : List (List UInt8)) (r : List UInt8) :
    linesText (l :: ls) ++ r = l ++ 10 :: (linesText ls ++ r) := by
  simp [linesText]

/-- The loop of parse_arg takes the lines apart again, and comes to the byte behind them. -/
theorem parseRest_lines {ls : List (List UInt8)} (h : ∀ l ∈ ls, IsLine l) {room : Nat}
    (hroom : ls.length ≤ room) (before : List UInt8) (g : UInt8) :
    parseRest [10] room (before ++ (linesText ls ++ [g])) before.length =
      if g = 0 then some ls else none := by
  induction ls generalizing room before with
  | nil =>
    have hend := mStrtokR_end before g
    rw [parseRest]
    show (match mStrtokR [10] (before ++ [g]) before.length with
      | none => none
      | some (_, _, none) => some []
      | some (mem, save, some token) => _) = _
    rw [hend]
    by_cases hg : g = 0
    · simp [hg]
    · simp [hg]
  | cons l ls ih =>
    obtain ⟨room, rfl⟩ : ∃ k, room = k + 1 := ⟨room - 1, by simp at hroom; omega⟩
    have hline := h l List.mem_cons_self
    have hl : 0 ∉ l := fun hzero => (hline.2 0 hzero).1 rfl
    have htoken := mStrtokR_token hline.1 hline.2 (d := 10) (by decide) (by decide) before
      (linesText ls ++ [g])
    have htext : CString.text ((before ++ (l ++ 0 :: (linesText ls ++ [g]))).drop before.length) =
        some l := by
      rw [List.drop_left]
      exact CString.text_append hl _
    have hrest := ih (fun k hk => h k (List.mem_cons_of_mem l hk)) (Nat.le_of_succ_le_succ hroom)
      (before ++ (l ++ [0]))
    have hplace : (before ++ (l ++ [0])).length = before.length + l.length + 1 := by
      simp [Nat.add_assoc]
    have hmem : before ++ (l ++ [0]) ++ (linesText ls ++ [g]) =
        before ++ (l ++ 0 :: (linesText ls ++ [g])) := by
      simp
    rw [hplace, hmem] at hrest
    rw [linesText_cons, parseRest, htoken]
    simp only [htext, Option.bind_eq_bind, Option.bind_some, hrest]
    by_cases hg : g = 0
    · simp [hg]
    · simp [hg]

theorem parseArg_lines {ls : List (List UInt8)} (h : ∀ l ∈ ls, IsLine l)
    (hcount : ls.length ≤ 50) (g : UInt8) :
    parseArg (linesText ls ++ [g]) 49 [10] = if g = 0 then some ls else none := by
  have hrest := parseRest_lines h hcount [] g
  cases ls with
  | nil =>
    by_cases hg : g = 0
    · simp [parseArg, linesText, hg]
    · simpa [parseArg, linesText, hg] using hrest
  | cons l ls =>
    obtain ⟨hne, hclean⟩ := h l List.mem_cons_self
    obtain ⟨b, tail, rfl⟩ := List.exists_cons_of_ne_nil hne
    have hb := (hclean b List.mem_cons_self).1
    rw [linesText_cons] at hrest ⊢
    rw [List.cons_append, parseArg, if_neg hb]
    exact hrest

theorem Param.line_length (p : Param) : p.line.length < 2047 := by
  have hkey := p.keyFits
  have hvalue := p.valueFits
  rw [Param.line, List.length_append, List.length_cons]
  omega

theorem decodeToken_line (p : Param) (tmp : List UInt8) (node : XmlNode) : ∃ tmp' node',
    decodeToken tmp (some node) p.line = some (tmp', some node') ∧ Holds node' p := by
  have hline : 0 ∉ p.line := fun hzero => (p.isLine.2 0 hzero).1 rfl
  obtain ⟨r, hcopy⟩ := CString.strncpy_fits hline p.line_length tmp []
  have hsplit : p.line ++ 0 :: r = p.key ++ 61 :: (p.value ++ 0 :: r) := by
    simp [Param.line]
  have hclean : ∀ b ∈ p.key, b ≠ 0 ∧ b ∉ [(61 : UInt8)] := by
    intro b hb
    have hkey := p.keyClean b hb
    simp [hkey.1, hkey.2.1]
  have hbreak := CString.strpbrk_append hclean (c := 61) (by decide) (by decide)
    (p.value ++ 0 :: r)
  have hset : (p.line ++ 0 :: r).set p.key.length 0 = p.key ++ 0 :: (p.value ++ 0 :: r) := by
    rw [hsplit]
    simp
  have hdrop : (p.key ++ 0 :: (p.value ++ 0 :: r)).drop (p.key.length + 1) =
      p.value ++ 0 :: r := by
    simp
  obtain ⟨r1, hkey⟩ :=
    CString.strncpy_fits p.key_noNul p.keyFits node.key (p.value ++ 0 :: r)
  obtain ⟨r2, hvalue⟩ := CString.strncpy_fits p.value_noNul p.valueFits node.value r
  rw [← hsplit] at hbreak
  refine ⟨p.key ++ 0 :: (p.value ++ 0 :: r), ⟨p.key ++ 0 :: r1, p.value ++ 0 :: r2⟩, ?_,
    r1, r2, rfl⟩
  simp only [decodeToken, hcopy, Option.bind_eq_bind, Option.bind_some, hbreak, hset, hkey, hdrop,
    hvalue]
  rfl

theorem decodeTokens_lines (nodes : Nat → XmlNode) (i : Nat) (tmp : List UInt8)
    (ps : List Param) : ∃ list,
      decodeTokens (fun i => some (nodes i)) i tmp (ps.map Param.line) = some list ∧
        List.Forall₂ Holds list ps := by
  induction ps generalizing i tmp with
  | nil => exact ⟨[], rfl, List.Forall₂.nil⟩
  | cons p ps ih =>
    obtain ⟨tmp', node, hfirst, hnode⟩ := decodeToken_line p tmp (nodes i)
    obtain ⟨list, hrest, hholds⟩ := ih (i + 1) tmp'
    refine ⟨node :: list, ?_, List.Forall₂.cons hnode hholds⟩
    rw [List.map_cons, decodeTokens, hfirst]
    simp [hrest]

/-- xpath_init on a message depends on the one byte that its copy leaves unwritten. -/
theorem xpathInit_encoded (hcount : ps.length ≤ 50) (block : Nat → UInt8) (tmp : List UInt8)
    (nodes : Nat → XmlNode) :
    if block (encoded ps).length = 0 then
      ∃ list, xpathInit ⟨block, tmp, fun i => some (nodes i)⟩ (encoded ps) = some list ∧
        List.Forall₂ Holds list ps
    else xpathInit ⟨block, tmp, fun i => some (nodes i)⟩ (encoded ps) = none := by
  have hlines : ∀ l ∈ ps.map Param.line, IsLine l := by
    intro l hl
    obtain ⟨p, -, rfl⟩ := List.mem_map.mp hl
    exact p.isLine
  have hclean : 0 ∉ encoded ps := by
    intro hzero
    obtain ⟨l, hl, hin⟩ := List.mem_flatMap.mp hzero
    obtain hl0 | hnl := List.mem_append.mp hin
    · exact ((hlines l hl).2 0 hl0).1 rfl
    · exact absurd hnl (by decide)
  have hptr : CString.strncpy ((List.range ((encoded ps).length + 1)).map block)
      (encoded ps ++ [0]) (encoded ps).length =
        some (encoded ps ++ [block (encoded ps).length]) := by
    rw [CString.strncpy_append hclean, CString.put]
    simp [List.range_succ]
  have hargv : parseArg (encoded ps ++ [block (encoded ps).length]) 49 [10] =
      if block (encoded ps).length = 0 then some (ps.map Param.line) else none :=
    parseArg_lines hlines (by rwa [List.length_map]) _
  obtain ⟨list, hdecode, hholds⟩ := decodeTokens_lines nodes 0 tmp ps
  have hinit : xpathInit ⟨block, tmp, fun i => some (nodes i)⟩ (encoded ps) =
      (parseArg (encoded ps ++ [block (encoded ps).length]) 49 [10]).bind
        (decodeTokens (fun i => some (nodes i)) 0 tmp) := by
    simp only [xpathInit, hptr, Option.bind_eq_bind, Option.bind_some]
  rw [hinit, hargv]
  split_ifs
  · exact ⟨list, hdecode, hholds⟩
  · rfl

/-- The search in a decoded list finds the node of the first pair with the key. -/
theorem find_holds {list : List XmlNode} (h : List.Forall₂ Holds list ps) {key probe : List UInt8}
    (hprobe : ∀ p : Param, ∀ r, CString.strncmpEq 49 (p.key ++ 0 :: r) probe =
      decide (p.key = key)) :
    match ps.find? fun p => p.key = key with
    | some p => ∃ node, list.find? (fun node => CString.strncmpEq 49 node.key probe) = some node ∧
        Holds node p
    | none => list.find? (fun node => CString.strncmpEq 49 node.key probe) = none := by
  induction h with
  | nil => simp
  | @cons node p list ps hnode _ ih =>
    have hsame : CString.strncmpEq 49 node.key probe = decide (p.key = key) := by
      obtain ⟨r, r', rfl⟩ := hnode
      exact hprobe p r
    by_cases hkey : p.key = key
    · simp [hsame, hkey, hnode]
    · simpa [hsame, hkey] using ih

theorem decoded_of_holds {list : List XmlNode} (h : List.Forall₂ Holds list ps) :
    Decoded ps list := by
  intro key stack size hkey
  obtain ⟨probe, hcopy, hprobe⟩ : ∃ probe, CString.strncpy stack.key (key ++ [0]) 49 = some probe ∧
      ∀ p : Param, ∀ r, CString.strncmpEq 49 (p.key ++ 0 :: r) probe = decide (p.key = key) := by
    refine ⟨_, CString.strncpy_append hkey 49 stack.key [], ?_⟩
    intro p r
    exact CString.strncmpEq_copied p.key_noNul hkey p.keyFits r (stack.key.drop 49)
  have hfind := find_holds h hprobe
  cases hp : ps.find? (fun p => p.key = key) with
  | none =>
    simp only [hp] at hfind
    simp [xpathGetParam, hcopy, hfind]
  | some p =>
    simp only [hp] at hfind
    obtain ⟨node, hfind, r, r', rfl⟩ := hfind
    intro hroom
    obtain ⟨k, rfl⟩ : ∃ k, size = p.value.length + k + 1 :=
      ⟨size - p.value.length - 1, by omega⟩
    have hzeros : List.replicate k (0 : UInt8) ++ [0] = 0 :: List.replicate k 0 := by
      rw [← List.replicate_succ', List.replicate_succ]
    have hvalue : CString.strncpy (List.replicate (p.value.length + k + 1) 0)
        (p.value ++ 0 :: r') (p.value.length + k) = some (p.value ++ 0 :: List.replicate k 0) := by
      rw [CString.strncpy_append p.value_noNul, CString.put,
        List.take_of_length_le (Nat.le_add_right _ _)]
      simp [hzeros]
    refine ⟨p.value ++ 0 :: List.replicate k 0, ?_, CString.text_append p.value_noNul _⟩
    simp [xpathGetParam, hcopy, hfind, hvalue]

/-- The encoder writes the lines, whatever malloc gave its nodes. -/
theorem roundTrips_iff (fresh : Nat → XmlNode) (garbage : Garbage) {size : Nat}
    (hsize : (encoded ps).length < size) : RoundTrips ps size fresh garbage ↔
      ∃ list, xpathInit garbage (encoded ps) = some list ∧ Decoded ps list := by
  obtain ⟨tree, htree, hholds⟩ := treeBuild_holds fresh 0 ps []
  have hxml : treeGetxml size tree = some (encoded ps) :=
    treeGetxml_holds hholds [] (by rwa [List.length_nil, Nat.zero_add])
  constructor
  · rintro ⟨tree', buffer, list, htree', hxml', hlist⟩
    rw [htree] at htree'
    cases htree'
    rw [List.nil_append, hxml] at hxml'
    cases hxml'
    exact ⟨list, hlist⟩
  · rintro ⟨list, hlist⟩
    exact ⟨tree, encoded ps, list, htree, hxml, hlist⟩

end

/-- Whatever the other garbage, a message comes back exactly when the byte of fresh memory behind
its text is zero. -/
theorem message_roundtrip_iff (ps : List Param) (size : Nat) (fresh nodes : Nat → XmlNode)
    (block : Nat → UInt8) (tmp : List UInt8) (hcount : ps.length ≤ 50)
    (hsize : (encoded ps).length < size) :
    RoundTrips ps size fresh ⟨block, tmp, fun i => some (nodes i)⟩ ↔
      block (encoded ps).length = 0 := by
  have hinit := xpathInit_encoded hcount block tmp nodes
  rw [roundTrips_iff fresh _ hsize]
  constructor
  · rintro ⟨list, hlist, -⟩
    by_contra hg
    rw [if_neg hg, hlist] at hinit
    cases hinit
  · intro hg
    rw [if_pos hg] at hinit
    obtain ⟨list, hlist, hholds⟩ := hinit
    exact ⟨list, hlist, decoded_of_holds hholds⟩

/-- The command that thr_pppd_client tells by its first four letters. -/
def cmdAuth : Param where
  key := [99, 109, 100]
  value := [97, 117, 116, 104]
  keyNonempty := by decide
  keyClean := by simp
  keyFits := by decide
  valueClean := by simp
  valueFits := by decide

/-- A node full of the letter A. -/
def usedNode : XmlNode := ⟨List.replicate 50 65, List.replicate 255 65⟩

theorem message_roundtrip_auth : RoundTrips [cmdAuth] 2048 (fun _ => usedNode)
    ⟨fun _ => 0, List.replicate 2048 65, fun _ => some usedNode⟩ :=
  (message_roundtrip_iff [cmdAuth] 2048 (fun _ => usedNode) (fun _ => usedNode) (fun _ => 0)
    (List.replicate 2048 65) (by decide) (by decide)).mpr rfl

/-- In a block that held the letter A, m_strtok_r reads on behind the message. -/
theorem message_unterminated : encoded [cmdAuth] = [99, 109, 100, 61, 97, 117, 116, 104, 10] ∧
    xpathInit ⟨fun _ => 65, List.replicate 2048 65, fun _ => some usedNode⟩ (encoded [cmdAuth]) =
      none ∧
    ¬ RoundTrips [cmdAuth] 2048 (fun _ => usedNode)
      ⟨fun _ => 65, List.replicate 2048 65, fun _ => some usedNode⟩ := by
  have hinit : xpathInit ⟨fun _ => 65, List.replicate 2048 65, fun _ => some usedNode⟩
      (encoded [cmdAuth]) = none := by
    have hcount : [cmdAuth].length ≤ 50 := by decide
    have hcases := xpathInit_encoded hcount (fun _ => 65) (List.replicate 2048 65)
      fun _ => usedNode
    rwa [if_neg (by decide)] at hcases
  refine ⟨rfl, hinit, ?_⟩
  rw [roundTrips_iff _ _ (by decide)]
  rintro ⟨list, hlist, -⟩
  rw [hinit] at hlist
  cases hlist

end IPStat
