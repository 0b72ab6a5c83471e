import IPStat.Inet
import IPStat.Lib.Regex
import Mathlib.Data.Nat.Bitwise
import Mathlib.Data.UInt

namespace IPStat

open Regex

/-- The word that stands for all ports in class.traffic.php. -/
def allPorts : List Char := ['В', 'с', 'е']

def ch (c : Char) : Item Char := .one (· == c)
def anyChar : Item Char := .one fun _ => true
def number : Item Char := .plus Char.isDigit

/-- The four patterns of setPorts: `[lo..hi]`, `[<n]`, `[>n]` and `n`. The dots of the first
are not escaped. -/
def rangeRe : List (Item Char) := [ch '[', number, anyChar, anyChar, number, ch ']']
def signRe (sign : Char) : List (Item Char) := [ch '[', ch sign, number, ch ']']
def numberRe : List (Item Char) := [number]

/-- PHP's integer value of a string of digits. -/
def intval (s : List Char) : Nat := s.foldl (fun n c => n * 10 + (c.toNat - 48)) 0

/-- setPorts of class.traffic.php; each `search` is one `ereg`. -/
def setPorts (ports : List Char) : Nat :=
  if ports = allPorts then 0
  else
    let (lo, hi) :=
      match search rangeRe ports with
      | some [lo, hi] => (intval lo, intval hi)
      | _ =>
        match search (signRe '<') ports with
        | some [hi] => (0, intval hi)
        | _ =>
          match search (signRe '>') ports with
          | some [lo] => (intval lo, 65535)
          | _ =>
            match search numberRe ports with
            | some [lo] => (intval lo, 0)
            | _ => (0, 0)
    hi <<< 16 + lo

/-- Type_Traffic.Ports, an unsigned 32-bit column. -/
def portsColumn (ports : Nat) : Nat := min ports 4294967295

/-- `node.ports = atoi(row[5])`: atoi of a 64-bit libc keeps the low 32 bits. -/
def loadPorts (column : Nat) : IpPorts := UInt32.ofNat column

/-- A nonempty string of decimal digits. -/
structure Numeral where
  digits : List Char
  nonempty : digits ≠ []
  decimal : ∀ c ∈ digits, c.isDigit = true

def Numeral.value (n : Numeral) : Nat := intval n.digits

inductive PortExpr where
  | all
  | one (n : Numeral)
  | range (lo hi : Numeral)
  | below (n : Numeral)
  | above (n : Numeral)

def PortExpr.text : PortExpr → List Char
  | .all => allPorts
  | .one n => n.digits
  | .range lo hi => '[' :: (lo.digits ++ '.' :: '.' :: (hi.digits ++ [']']))
  | .below n => '[' :: '<' :: (n.digits ++ [']'])
  | .above n => '[' :: '>' :: (n.digits ++ [']'])

def IsPort (n : Nat) : Prop := 0 < n ∧ n ≤ 65535

def PortExpr.WellFormed : PortExpr → Prop
  | .all => True
  | .one n => IsPort n.value
  | .range lo hi => IsPort lo.value ∧ IsPort hi.value ∧ lo.value ≤ hi.value
  | .below n => IsPort n.value
  | .above n => IsPort n.value

/-- The ports that an expression is written for. -/
def PortExpr.denotes : PortExpr → Nat → Prop
  | .all, _ => True
  | .one n, p => p = n.value
  | .range lo hi, p => lo.value ≤ p ∧ p ≤ hi.value
  | .below n, p => p < n.value
  | .above n, p => n.value < p

/-- The packed word of an expression. -/
def PortExpr.packed : PortExpr → Nat
  | .all => 0
  | .one n => n.value
  | .range lo hi => hi.value * 65536 + lo.value
  | .below n => n.value * 65536
  | .above n => 65535 * 65536 + n.value

/-- NODE_RULE.ports of a rule saved with this expression. -/
def PortExpr.rulePorts (e : PortExpr) : IpPorts := loadPorts (portsColumn (setPorts e.text))

theorem digit_ne {c d : Char} (hc : c.isDigit = true) (hd : d.isDigit = false) :
    (c == d) = false := by
  rw [beq_eq_false_iff_ne]
  rintro rfl
  rw [hc] at hd
  cases hd

theorem Numeral.absent (n : Numeral) {d : Char} (hd : d.isDigit = false) :
    ∀ c ∈ n.digits, (c == d) = false :=
  fun c hc => digit_ne (n.decimal c hc) hd

/-- A numeral and a closing bracket. -/
theorem found_number_close (n : Numeral) :
    found [number, ch ']'] (n.digits ++ [']']) = [([n.digits], [])] := by
  have hclose : ∀ a ∈ [']'].head?, a.isDigit = false := by
    intro a ha
    cases ha
    rfl
  rw [number, ch, found_plus_one n.decimal n.nonempty hclose
    (fun a ha => digit_ne ha (by decide))]
  rfl

/-- No bracket closes a run of digits that something else follows. -/
theorem found_number_open {d s : List Char} {c : Char} (hd : ∀ a ∈ d, a.isDigit = true)
    (hne : d ≠ []) (hc : c.isDigit = false) (hcc : c ≠ ']') :
    found [number, ch ']'] (d ++ c :: s) = [] := by
  rw [number, ch, found_plus_one hd hne (by simpa using hc)
    (fun a ha => digit_ne ha (by decide)), found_one_miss s (by simpa using hcc)]
  rfl

theorem found_range (lo hi : Numeral) :
    found rangeRe (PortExpr.range lo hi).text = [([lo.digits, hi.digits], [])] := by
  rw [PortExpr.text, rangeRe, ch, found_one _ (by decide), number]
  rw [found_plus lo.decimal lo.nonempty (by simp)]
  · rw [anyChar, found_one _ rfl, found_one _ rfl]
    change (found [number, ch ']'] (hi.digits ++ [']'])).map _ = _
    rw [found_number_close]
    rfl
  · intro d' d'' he hne
    have hdig : ∀ a ∈ d'', a.isDigit = true := fun a ha => lo.decimal a (by rw [he]; simp [ha])
    -- the two wildcards eat one digit, two digits, or leave a run with no bracket
    match d'', hne with
    | [a], _ => rfl
    | [a, b], _ => rfl
    | a :: b :: c :: d3, _ =>
      have hrun : ∀ x ∈ c :: d3, x.isDigit = true := fun x hx => hdig x (by simp_all)
      exact found_number_open hrun (by simp) (by decide) (by decide)

theorem search_range (lo hi : Numeral) :
    search rangeRe (PortExpr.range lo hi).text = some [lo.digits, hi.digits] :=
  search_hit (m := ([lo.digits, hi.digits], [])) (by rw [found_range]; rfl)

/-- Behind the first bracket of such a text there is no other. -/
theorem Numeral.sign_absent (n : Numeral) {c : Char} (hcb : (c == '[') = false) :
    ∀ a ∈ c :: (n.digits ++ [']']), (a == '[') = false := by
  intro a ha
  obtain rfl | ha := List.mem_cons.mp ha
  · exact hcb
  obtain ha | ha := List.mem_append.mp ha
  · exact n.absent (by decide) a ha
  · rw [List.mem_singleton.mp ha]
    rfl

/-- A pattern that asks for a digit after the bracket finds none in `[<n]` and `[>n]`. -/
theorem search_range_miss (n : Numeral) {c : Char} (hc : c.isDigit = false)
    (hcb : (c == '[') = false) :
    search rangeRe ('[' :: c :: (n.digits ++ [']'])) = none := by
  rw [rangeRe, search_miss]
  · exact search_absent (n.sign_absent hcb)
  · rw [ch, found_one _ rfl, number, found_plus_miss _ hc]

/-- A bracketed comparison is found by its own pattern. -/
theorem search_sign (n : Numeral) (c : Char) :
    search (signRe c) ('[' :: c :: (n.digits ++ [']'])) = some [n.digits] := by
  apply search_hit (m := ([n.digits], []))
  rw [signRe, ch, found_one _ rfl, ch, found_one _ (by simp), found_number_close]
  rfl

theorem search_sign_miss (n : Numeral) {c d : Char} (hcd : (c == d) = false)
    (hcb : (c == '[') = false) :
    search (signRe d) ('[' :: c :: (n.digits ++ [']'])) = none := by
  rw [signRe, search_miss]
  · exact search_absent (n.sign_absent hcb)
  · rw [ch, found_one _ rfl]
    exact found_one_miss _ hcd

/-- No bracketed pattern is found in a bare number. -/
theorem search_bare (n : Numeral) (items : List (Item Char)) :
    search (ch '[' :: items) n.digits = none :=
  search_absent (n.absent (by decide))

theorem search_number (n : Numeral) : search numberRe n.digits = some [n.digits] :=
  search_hit (longest_run n.decimal n.nonempty)

theorem Numeral.ne_allPorts (n : Numeral) : n.digits ≠ allPorts := by
  intro h
  have hd := n.decimal 'В' (by rw [h]; decide)
  exact absurd hd (by decide)

theorem bracket_ne_allPorts (s : List Char) : '[' :: s ≠ allPorts := by
  intro h
  exact absurd (List.cons.inj h).1 (by decide)

/-- setPorts packs what the expression says. -/
theorem setPorts_text (e : PortExpr) : setPorts e.text = e.packed := by
  cases e with
  | all => rfl
  | one n =>
    have h1 : search rangeRe n.digits = none := search_bare n _
    have h2 (c : Char) : search (signRe c) n.digits = none := search_bare n _
    simp [setPorts, PortExpr.text, n.ne_allPorts, h1, h2, search_number, PortExpr.packed,
      Numeral.value]
  | range lo hi =>
    have hne : (PortExpr.range lo hi).text ≠ allPorts := bracket_ne_allPorts _
    rw [setPorts, if_neg hne, search_range]
    simp [PortExpr.packed, Numeral.value, Nat.shiftLeft_eq]
  | below n =>
    have hne : (PortExpr.below n).text ≠ allPorts := bracket_ne_allPorts _
    rw [setPorts, if_neg hne]
    simp [PortExpr.text, search_range_miss n (c := '<') (by decide) (by decide), search_sign,
      PortExpr.packed, Numeral.value, Nat.shiftLeft_eq]
  | above n =>
    have hne : (PortExpr.above n).text ≠ allPorts := bracket_ne_allPorts _
    rw [setPorts, if_neg hne]
    simp [PortExpr.text, search_range_miss n (c := '>') (by decide) (by decide), search_sign,
      search_sign_miss n (c := '>') (d := '<') (by decide) (by decide), PortExpr.packed,
      Numeral.value, Nat.shiftLeft_eq]

theorem PortExpr.packed_lt {e : PortExpr} (h : e.WellFormed) : e.packed ≤ 4294967295 := by
  cases e with
  | all => exact Nat.zero_le _
  | one n =>
    obtain ⟨_, hn⟩ := h
    change n.value ≤ _
    omega
  | range lo hi =>
    obtain ⟨⟨_, hlo⟩, ⟨_, hhi⟩, _⟩ := h
    change hi.value * 65536 + lo.value ≤ _
    omega
  | below n =>
    obtain ⟨_, hn⟩ := h
    change n.value * 65536 ≤ _
    omega
  | above n =>
    obtain ⟨_, hn⟩ := h
    change 65535 * 65536 + n.value ≤ _
    omega

/-- The column and the loader keep the packed word. -/
theorem PortExpr.rulePorts_eq {e : PortExpr} (h : e.WellFormed) :
    e.rulePorts = UInt32.ofNat e.packed := by
  rw [PortExpr.rulePorts, setPorts_text, portsColumn, Nat.min_eq_left (packed_lt h), loadPorts]

/-- A record cut to 16 bits has only two shapes left: all ports and one port. -/
theorem comparePorts_cut (p r : IpPort) :
    comparePorts p r = true ↔ r.toNat = 0 ∨ p.toNat = r.toNat := by
  have hr := r.toNat_lt
  have hlo : (r.toUInt32 &&& 65535).toUInt16 = r := by
    apply UInt16.toNat.inj
    have hm := Nat.and_two_pow_sub_one_eq_mod r.toNat 16
    rw [Nat.mod_eq_of_lt hr] at hm
    simpa using hm
  have hhi : ((r.toUInt32 &&& 0xFFFF0000) >>> 16).toUInt16 = 0 := by
    apply UInt16.toNat.inj
    have hs : (r.toNat &&& 4294901760) >>> 16 = 0 := by
      rw [Nat.shiftRight_and_distrib, Nat.shiftRight_eq_div_pow, Nat.div_eq_of_lt hr,
        Nat.zero_and]
    simp [hs]
  have hz : r.toNat = 0 ↔ r = 0 := by
    rw [← UInt16.toNat_inj]
    rfl
  rw [hz, UInt16.toNat_inj]
  by_cases h0 : r = 0 <;> simp [comparePorts, recByPorts, hlo, hhi, h0]

theorem PortExpr.rulePorts_cut {e : PortExpr} (h : e.WellFormed) :
    e.rulePorts.toUInt16.toNat = e.packed % 65536 := by
  have hlt := packed_lt h
  rw [rulePorts_eq h, UInt32.toNat_toUInt16, UInt32.toNat_ofNat_of_lt']
  change e.packed < 2 ^ 32
  omega

/-- The ports of a packet that an expression is read right for. -/
def PortExpr.Reads : PortExpr → Nat → Prop
  | .all, _ => True
  | .one _, _ => True
  | .range lo hi, p => p ≤ lo.value ∨ hi.value < p
  | .below n, p => p < n.value
  | .above n, p => p < n.value

/-- What the daemon makes of an expression agrees with what it denotes exactly there. -/
theorem comparePorts_denotes_iff (e : PortExpr) (p : IpPort) (h : e.WellFormed) :
    (comparePorts p e.rulePorts.toUInt16 = true ↔ e.denotes p.toNat) ↔ e.Reads p.toNat := by
  rw [comparePorts_cut, PortExpr.rulePorts_cut h]
  cases e with
  | all => simp [PortExpr.packed, PortExpr.denotes, PortExpr.Reads]
  | one n =>
    obtain ⟨h0, hn⟩ := h
    simp only [PortExpr.packed, PortExpr.denotes, PortExpr.Reads, iff_true]
    omega
  | range lo hi =>
    obtain ⟨⟨h0, hlo⟩, ⟨_, hhi⟩, hle⟩ := h
    simp only [PortExpr.packed, PortExpr.denotes, PortExpr.Reads]
    omega
  | below n =>
    obtain ⟨h0, hn⟩ := h
    simp only [PortExpr.packed, PortExpr.denotes, PortExpr.Reads]
    omega
  | above n =>
    obtain ⟨h0, hn⟩ := h
    simp only [PortExpr.packed, PortExpr.denotes, PortExpr.Reads]
    omega

def eighty : Numeral := ⟨['8', '0'], by decide, List.all_eq_true.mp (by decide)⟩
def ninety : Numeral := ⟨['9', '0'], by decide, List.all_eq_true.mp (by decide)⟩

theorem comparePorts_denotes_eighty :
    (comparePorts 80 (PortExpr.one eighty).rulePorts.toUInt16 = true ↔
      (PortExpr.one eighty).denotes 80) ↔ (PortExpr.one eighty).Reads 80 :=
  comparePorts_denotes_iff (.one eighty) 80 (by unfold PortExpr.WellFormed IsPort; decide)

/-- `[80..90]` matches port 80 alone. -/
theorem comparePorts_misses_range :
    (PortExpr.range eighty ninety).text = "[80..90]".toList ∧
      (PortExpr.range eighty ninety).WellFormed ∧
      (PortExpr.range eighty ninety).denotes (85 : IpPort).toNat ∧
      comparePorts 85 (PortExpr.range eighty ninety).rulePorts.toUInt16 = false := by
  have hwf : (PortExpr.range eighty ninety).WellFormed := by
    unfold PortExpr.WellFormed IsPort
    decide
  refine ⟨rfl, hwf, by unfold PortExpr.denotes; decide, ?_⟩
  rw [PortExpr.rulePorts_eq hwf]
  decide

/-- An integer as PHP writes it. -/
def decimalText (n : Nat) : List Char := Nat.toDigits 10 n

/-- getPorts of class.traffic.php, with PHP's integers of 64 bits; `$tmp` left unset is the
empty text. -/
def getPorts (ports : UInt32) : List Char :=
  if ports.toNat = 0 then allPorts
  else
    let lo := ports.toNat &&& 65535
    let hi := ports.toNat >>> 16
    if hi = 0 ∧ lo ≠ 0 then decimalText lo
    else if hi ≠ 0 ∧ lo ≠ 0 then
      ['['] ++ decimalText lo ++ ['.', '.'] ++ decimalText hi ++ [']']
    else if hi ≠ 0 ∧ lo = 0 then ['[', '<'] ++ decimalText hi ++ [']']
    -- no word shifted right is negative
    else if (hi : Int) = -1 ∧ lo ≠ 0 then ['[', '>'] ++ decimalText hi ++ [']']
    else []

def numeralOf (n : Nat) : Numeral where
  digits := decimalText n
  nonempty := Nat.toDigits_ne_nil
  decimal := fun _ hc => Nat.isDigit_of_mem_toDigits (by decide) (by decide) hc

theorem numeralOf_value (n : Nat) : (numeralOf n).value = n := by
  have hread : intval (Nat.toDigits 10 n) = Nat.ofDigitChars 10 (Nat.toDigits 10 n) 0 := by
    rw [intval, Nat.ofDigitChars_eq_foldl]
    congr 1
    funext m c
    rw [Nat.mul_comm]
    rfl
  exact hread.trans Nat.ofDigitChars_ten_toDigits

/-- The expression that getPorts shows a stored word as. -/
def PortExpr.ofWord (ports : UInt32) : PortExpr :=
  let lo := ports.toNat % 65536
  let hi := ports.toNat / 65536
  if hi = 0 then if lo = 0 then .all else .one (numeralOf lo)
  else if lo = 0 then .below (numeralOf hi) else .range (numeralOf lo) (numeralOf hi)

theorem getPorts_text (ports : UInt32) : getPorts ports = (PortExpr.ofWord ports).text := by
  have hlo : ports.toNat &&& 65535 = ports.toNat % 65536 :=
    Nat.and_two_pow_sub_one_eq_mod ports.toNat 16
  have hhi : ports.toNat >>> 16 = ports.toNat / 65536 := Nat.shiftRight_eq_div_pow _ 16
  have hsplit := Nat.div_add_mod ports.toNat 65536
  simp only [getPorts, PortExpr.ofWord, hlo, hhi]
  by_cases hh : ports.toNat / 65536 = 0
  · by_cases hl : ports.toNat % 65536 = 0
    · have hzero : ports.toNat = 0 := by omega
      simp [hzero, PortExpr.text]
    · have hne : ports.toNat ≠ 0 := by omega
      simp [hne, hh, hl, PortExpr.text, numeralOf]
  · have hne : ports.toNat ≠ 0 := by omega
    by_cases hl : ports.toNat % 65536 = 0
    · simp [hne, hh, hl, PortExpr.text, numeralOf]
    · simp [hne, hh, hl, PortExpr.text, numeralOf]

theorem ofWord_packed (ports : UInt32) : (PortExpr.ofWord ports).packed = ports.toNat := by
  have hsplit := Nat.div_add_mod ports.toNat 65536
  simp only [PortExpr.ofWord]
  split_ifs with hh hl hl
  · show 0 = ports.toNat
    omega
  · rw [PortExpr.packed, numeralOf_value]
    omega
  · rw [PortExpr.packed, numeralOf_value]
    omega
  · rw [PortExpr.packed, numeralOf_value, numeralOf_value]
    omega

/-- The text shown for a stored word is read back as the word. -/
theorem setPorts_getPorts (ports : UInt32) : setPorts (getPorts ports) = ports.toNat := by
  rw [getPorts_text, setPorts_text, ofWord_packed]

example : getPorts 5898320 = "[80..90]".toList := by decide

end IPStat
