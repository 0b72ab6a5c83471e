import IPStat.Lib.Rounding

namespace IPStat

/-- What stands in a field of a form: a number, and a letter behind it. -/
structure FieldText where
  number : ℚ
  suffix : Option Char
  deriving DecidableEq

/-- convertTraffic of main.class.php. -/
def convertTraffic (multFactor x : ℚ) (isConvert : Bool) : FieldText :=
  let x := if isConvert then x * multFactor else x
  if 1024 < x then
    let x := x / 1024
    if 1024 < x then
      let x := x / 1024
      if 1024 < x then
        let x := x / 1024
        ⟨Rounding.nearest (x * 100) / 100, some 'G'⟩
      else ⟨Rounding.nearest (x * 100) / 100, some 'M'⟩
    else ⟨Rounding.nearest (x * 100) / 100, some 'K'⟩
  else ⟨x, none⟩

/-- How MySQL stores the number of a text in an integer column: it rounds, or it drops the fraction
as it did before version 5. A letter behind the number is ignored. -/
inductive Conversion where
  | rounds
  | cuts
  deriving DecidableEq, Repr

def Conversion.toInteger : Conversion → ℚ → Int
  | .rounds => Rounding.nearest
  | .cuts => Rounding.cut

/-- A text written to a bigint(20) column. -/
def bigintColumn (mysql : Conversion) (text : FieldText) : Int :=
  max (-2 ^ 63) (min (2 ^ 63 - 1) (mysql.toInteger text.number))

/-- The columns of Users that the form and the update are about, but for those that are copied as
texts. -/
structure UserColumns where
  addr : List Char
  type : UInt8
  limitation : Int
  balance : ℚ
  deriving DecidableEq

/-- A row as the rest of the program writes it. -/
structure UserRow extends UserColumns where
  typeListed : type ≤ 3
  limitationRange : limitation = -1 ∨ 0 ≤ limitation ∧ limitation < 2 ^ 63

/-- What the browser submits: the fields of the form. -/
structure EditForm where
  addr : List Char
  oldAddr : List Char
  type : UInt8
  limitation : FieldText

/-- displayEditUser, submitted as it is: a select with none of its options selected sends the
first. -/
def displayEditUser (multFactor : ℚ) (user : UserColumns) : EditForm where
  addr := user.addr
  oldAddr := user.addr
  type := if user.type ∈ [0, 1, 2, 3] then user.type else 0
  limitation := convertTraffic multFactor user.limitation false

/-- The two tests for a suffix; multiplying a text takes the number it begins with. -/
def suffixed (limitation : FieldText) : FieldText :=
  let limitation := if limitation.suffix = some 'K' then ⟨limitation.number * 1024, none⟩
    else limitation
  if limitation.suffix = some 'M' then ⟨limitation.number * 1048576, none⟩ else limitation

/-- The update of processingEditUser. -/
def updateUser (mysql : Conversion) (form : EditForm) : UserColumns where
  addr := form.addr
  type := form.type
  limitation := bigintColumn mysql (suffixed form.limitation)
  balance := 0

/-- processingEditUser; `taken` are the addresses that other rows have. -/
def processingEditUser (mysql : Conversion) (taken : List Char → Bool) (form : EditForm)
    (user : UserColumns) : UserColumns :=
  if form.addr = form.oldAddr then updateUser mysql form
  else if taken form.addr then user
  else updateUser mysql form

/-- Saving the form as it was shown changes none of the three columns. -/
def SavesUnchanged (mysql : Conversion) (multFactor : ℚ) (taken : List Char → Bool)
    (user : UserColumns) : Prop :=
  let saved := processingEditUser mysql taken (displayEditUser multFactor user) user
  saved.limitation = user.limitation ∧ saved.type = user.type ∧ saved.balance = user.balance

/-- A multiple of `unit` / 25 becomes the limit when it is made an integer. -/
def Conversion.Hits (mysql : Conversion) (unit limitation : Int) : Prop :=
  match mysql with
  | .rounds => (25 * limitation + 12) % unit ≤ 24
  | .cuts => -(25 * limitation) % unit ≤ 24

/-- The limits that are shown exactly enough: those shown without a letter, and those that two
decimals of a kilobyte or a megabyte tell apart from their neighbours. -/
def Survives (mysql : Conversion) (limitation : Int) : Prop :=
  limitation ≤ 1024 ∨ (limitation ≤ 1048576 ∧ mysql.Hits 256 limitation) ∨
    (1048576 < limitation ∧ limitation ≤ 1073741824 ∧ mysql.Hits 262144 limitation)

section
variable {mysql : Conversion} {n : Int}

theorem toInteger_intCast (mysql : Conversion) (n : Int) : mysql.toInteger n = n := by
  cases mysql with
  | rounds => exact Rounding.nearest_intCast n
  | cuts => exact Rounding.cut_intCast n

/-- The text of a limit by its size. -/
theorem convertTraffic_plain (multFactor : ℚ) (h : n ≤ 1024) :
    convertTraffic multFactor n false = ⟨n, none⟩ := by
  have hle : ¬ (1024 : ℚ) < n := by
    rw [not_lt]
    exact_mod_cast h
  simp [convertTraffic, hle]

theorem convertTraffic_kilo (multFactor : ℚ) (hlow : 1024 < n) (hhigh : n ≤ 1048576) :
    convertTraffic multFactor n false = ⟨((50 * n + 256) / 512 : Int) / 100, some 'K'⟩ := by
  have h1 : (1024 : ℚ) < n := by exact_mod_cast hlow
  have h2 : ¬ (1024 : ℚ) < n / 1024 := by
    rw [not_lt, div_le_iff₀ (by norm_num)]
    exact_mod_cast (by omega : n ≤ 1024 * 1024)
  have hround : Rounding.nearest ((n : ℚ) / 1024 * 100) = (50 * n + 256) / 512 := by
    have hdiv := Rounding.nearest_div (a := 25 * n) (b := 256) (by omega) (by decide)
    have heq : (n : ℚ) / 1024 * 100 = ((25 * n : Int) : ℚ) / (256 : Nat) := by
      push_cast
      ring
    rw [heq, hdiv]
    push_cast
    omega
  simp [convertTraffic, h1, h2, hround]

theorem convertTraffic_mega (multFactor : ℚ) (hlow : 1048576 < n) (hhigh : n ≤ 1073741824) :
    convertTraffic multFactor n false =
      ⟨((50 * n + 262144) / 524288 : Int) / 100, some 'M'⟩ := by
  have h1 : (1024 : ℚ) < n := by exact_mod_cast (by omega : 1024 < n)
  have h2 : (1024 : ℚ) < n / 1024 := by
    rw [lt_div_iff₀ (by norm_num)]
    exact_mod_cast (by omega : 1024 * 1024 < n)
  have h3 : ¬ (1024 : ℚ) < n / 1024 / 1024 := by
    rw [not_lt, div_le_iff₀ (by norm_num), div_le_iff₀ (by norm_num)]
    exact_mod_cast (by omega : n ≤ 1024 * 1024 * 1024)
  have hround : Rounding.nearest ((n : ℚ) / 1024 / 1024 * 100) = (50 * n + 262144) / 524288 := by
    have hdiv := Rounding.nearest_div (a := 25 * n) (b := 262144) (by omega) (by decide)
    have heq : (n : ℚ) / 1024 / 1024 * 100 = ((25 * n : Int) : ℚ) / (262144 : Nat) := by
      push_cast
      ring
    rw [heq, hdiv]
    push_cast
    omega
  simp [convertTraffic, h1, h2, h3, hround]

theorem convertTraffic_giga (multFactor : ℚ) (hlow : 1073741824 < n) :
    convertTraffic multFactor n false =
      ⟨Rounding.nearest ((n : ℚ) / 1024 / 1024 / 1024 * 100) / 100, some 'G'⟩ := by
  have h1 : (1024 : ℚ) < n := by exact_mod_cast (by omega : 1024 < n)
  have h2 : (1024 : ℚ) < n / 1024 := by
    rw [lt_div_iff₀ (by norm_num)]
    exact_mod_cast (by omega : 1024 * 1024 < n)
  have h3 : (1024 : ℚ) < n / 1024 / 1024 := by
    rw [lt_div_iff₀ (by norm_num), lt_div_iff₀ (by norm_num)]
    exact_mod_cast (by omega : 1024 * 1024 * 1024 < n)
  simp [convertTraffic, h1, h2, h3]

theorem toInteger_twentyFifths {m : Int} (hm : 0 ≤ m) : mysql.toInteger ((m : ℚ) / 25) =
    match mysql with
    | .rounds => (2 * m + 25) / 50
    | .cuts => m / 25 := by
  cases mysql with
  | rounds => exact Rounding.nearest_div (b := 25) hm (by decide)
  | cuts => exact Rounding.cut_div (b := 25) hm

/-- The multiple of the unit that rounding picks is the one that hits, if any does. -/
theorem hits_iff {unit m : Int} (hunit : unit = 256 ∨ unit = 262144)
    (hm : m = (50 * n + unit) / (2 * unit)) : mysql.Hits unit n ↔
    match mysql with
    | .rounds => -12 ≤ unit * m - 25 * n ∧ unit * m - 25 * n ≤ 12
    | .cuts => 0 ≤ unit * m - 25 * n ∧ unit * m - 25 * n ≤ 24 := by
  cases mysql with
  | rounds =>
    simp only [Conversion.Hits]
    obtain hbelow | hat | habove := lt_trichotomy ((25 * n + 12) / unit) m <;>
      obtain rfl | rfl := hunit <;> omega
  | cuts =>
    simp only [Conversion.Hits]
    obtain hbelow | hat | habove := lt_trichotomy (-(-(25 * n) / unit)) m <;>
      obtain rfl | rfl := hunit <;> omega

/-- What is stored of a limit that was shown with a letter. -/
theorem stored_iff {unit : Int} {q : ℚ} (hunit : unit = 256 ∨ unit = 262144)
    (hq : q = ((unit * ((50 * n + unit) / (2 * unit)) : Int) : ℚ) / 25) (hlow : 1024 < n)
    (hhigh : n ≤ 1073741824) :
    bigintColumn mysql ⟨q, none⟩ = n ↔ mysql.Hits unit n := by
  obtain ⟨m, hm⟩ : ∃ m, m = (50 * n + unit) / (2 * unit) := ⟨_, rfl⟩
  rw [← hm] at hq
  have hnonneg : 0 ≤ unit * m := by
    obtain rfl | rfl := hunit <;> omega
  rw [bigintColumn, hq, toInteger_twentyFifths hnonneg, hits_iff hunit hm]
  obtain ⟨k, hk⟩ : ∃ k, k = unit * m := ⟨_, rfl⟩
  rw [← hk]
  have hle : k ≤ 25 * n + 262144 := by
    obtain rfl | rfl := hunit <;> omega
  cases mysql with
  | rounds =>
    dsimp only
    omega
  | cuts =>
    dsimp only
    omega

theorem stored_kilo (hlow : 1024 < n) (hhigh : n ≤ 1048576) :
    bigintColumn mysql (suffixed ⟨((50 * n + 256) / 512 : Int) / 100, some 'K'⟩) = n ↔
      mysql.Hits 256 n := by
  have hsuffixed : suffixed ⟨((50 * n + 256) / 512 : Int) / 100, some 'K'⟩ =
      ⟨((50 * n + 256) / 512 : Int) / 100 * 1024, none⟩ := by
    simp [suffixed]
  rw [hsuffixed]
  apply stored_iff (.inl rfl) _ hlow (by omega)
  push_cast
  ring

theorem stored_mega (hlow : 1048576 < n) (hhigh : n ≤ 1073741824) :
    bigintColumn mysql (suffixed ⟨((50 * n + 262144) / 524288 : Int) / 100, some 'M'⟩) = n ↔
      mysql.Hits 262144 n := by
  have hsuffixed : suffixed ⟨((50 * n + 262144) / 524288 : Int) / 100, some 'M'⟩ =
      ⟨((50 * n + 262144) / 524288 : Int) / 100 * 1048576, none⟩ := by
    simp [suffixed]
  rw [hsuffixed]
  apply stored_iff (.inr rfl) _ (by omega) hhigh
  push_cast
  ring

theorem toInteger_le {q : ℚ} (hq : 0 ≤ q) : (mysql.toInteger q : ℚ) ≤ q + 1 / 2 := by
  cases mysql with
  | rounds => exact Rounding.nearest_le hq
  | cuts =>
    have hcut := Rounding.cut_le hq
    show (Rounding.cut q : ℚ) ≤ q + 1 / 2
    linarith

/-- No one multiplies what stands before a G. -/
theorem stored_giga (hlow : 1073741824 < n) :
    bigintColumn mysql (suffixed
      ⟨Rounding.nearest ((n : ℚ) / 1024 / 1024 / 1024 * 100) / 100, some 'G'⟩) ≠ n := by
  obtain ⟨x, hx⟩ : ∃ x : ℚ, x = (n : ℚ) / 1024 / 1024 / 1024 * 100 := ⟨_, rfl⟩
  have hn : (1073741824 : ℚ) < n := by exact_mod_cast hlow
  have hx0 : 0 ≤ x := by
    rw [hx]
    positivity
  have hround : (Rounding.nearest x : ℚ) ≤ x + 1 / 2 := Rounding.nearest_le hx0
  have hround0 : (0 : ℚ) ≤ Rounding.nearest x := by exact_mod_cast Rounding.nearest_nonneg hx0
  have hstored := @toInteger_le mysql ((Rounding.nearest x : ℚ) / 100) (by linarith)
  have hless : mysql.toInteger ((Rounding.nearest x : ℚ) / 100) < n := by
    have hcast : (mysql.toInteger ((Rounding.nearest x : ℚ) / 100) : ℚ) < n := by linarith
    exact_mod_cast hcast
  rw [← hx]
  simp only [suffixed, Option.some.injEq, Char.reduceEq, if_false, bigintColumn]
  omega

/-- What the form shows of a limit is stored as the limit exactly when the limit survives. -/
theorem limitation_survives_iff (multFactor : ℚ)
    (hrange : n = -1 ∨ 0 ≤ n ∧ n < 2 ^ 63) :
    bigintColumn mysql (suffixed (convertTraffic multFactor n false)) = n ↔ Survives mysql n := by
  by_cases hplain : n ≤ 1024
  · have hwhole : bigintColumn mysql (suffixed (convertTraffic multFactor n false)) = n := by
      rw [convertTraffic_plain multFactor hplain]
      simp only [suffixed, reduceCtorEq, if_false, bigintColumn, toInteger_intCast]
      omega
    exact iff_of_true hwhole (.inl hplain)
  by_cases hkilo : n ≤ 1048576
  · rw [convertTraffic_kilo multFactor (by omega) hkilo, stored_kilo (by omega) hkilo, Survives]
    have hnot : ¬ 1048576 < n := by omega
    simp [hplain, hkilo, hnot]
  by_cases hmega : n ≤ 1073741824
  · rw [convertTraffic_mega multFactor (by omega) hmega, stored_mega (by omega) hmega, Survives]
    have hlow : 1048576 < n := by omega
    simp [hplain, hkilo, hmega, hlow]
  · rw [convertTraffic_giga multFactor (by omega)]
    apply iff_of_false (stored_giga (by omega))
    simp [Survives, hplain, hkilo, hmega]

theorem displayEditUser_type (multFactor : ℚ) (user : UserRow) :
    (displayEditUser multFactor user.toUserColumns).type = user.type := by
  have hmem : user.type ∈ [0, 1, 2, 3] := by
    have hle := UInt8.le_iff_toNat_le.mp user.typeListed
    have hthree : (3 : UInt8).toNat = 3 := rfl
    simp only [List.mem_cons, List.not_mem_nil, or_false, ← UInt8.toNat_inj, UInt8.reduceToNat]
    omega
  exact if_pos hmem

end

/-- The form changes nothing exactly when the balance is zero already and the limit is one that
the form shows exactly enough. -/
theorem edit_form_unchanged_iff (mysql : Conversion) (multFactor : ℚ)
    (taken : List Char → Bool) (user : UserRow) :
    SavesUnchanged mysql multFactor taken user.toUserColumns ↔
      user.balance = 0 ∧ Survives mysql user.limitation := by
  have hsaved : processingEditUser mysql taken (displayEditUser multFactor user.toUserColumns)
      user.toUserColumns = updateUser mysql (displayEditUser multFactor user.toUserColumns) :=
    if_pos rfl
  rw [SavesUnchanged, hsaved]
  have hlimit := @limitation_survives_iff mysql user.limitation multFactor
    user.limitationRange
  constructor
  · intro h
    obtain ⟨hlimitation, -, hbalance⟩ := h
    exact ⟨hbalance.symm, hlimit.mp hlimitation⟩
  · intro h
    obtain ⟨hbalance, hsurvives⟩ := h
    exact ⟨hlimit.mpr hsurvives, displayEditUser_type multFactor user, hbalance.symm⟩

/-- A limit of 2000 bytes, and a balance of 5. -/
def modestUser : UserRow := ⟨⟨[], 1, 2000, 5⟩, by decide, by decide⟩

/-- Two gigabytes and no balance. -/
def heavyUser : UserRow := ⟨⟨[], 1, 2147483648, 0⟩, by decide, by decide⟩

/-- One loses the balance and three or four bytes of the limit, the other all but two bytes. -/
theorem edit_form_changes :
    processingEditUser .rounds (fun _ => false)
        (displayEditUser 1 modestUser.toUserColumns) modestUser.toUserColumns = ⟨[], 1, 1997, 0⟩ ∧
      processingEditUser .cuts (fun _ => false)
        (displayEditUser 1 modestUser.toUserColumns) modestUser.toUserColumns = ⟨[], 1, 1996, 0⟩ ∧
      processingEditUser .rounds (fun _ => false)
        (displayEditUser 1 heavyUser.toUserColumns) heavyUser.toUserColumns = ⟨[], 1, 2, 0⟩ ∧
      ¬ SavesUnchanged .rounds 1 (fun _ => false) modestUser.toUserColumns ∧
      ¬ SavesUnchanged .cuts 1 (fun _ => false) modestUser.toUserColumns ∧
      ¬ SavesUnchanged .rounds 1 (fun _ => false) heavyUser.toUserColumns := by
  have hrounds : processingEditUser .rounds (fun _ => false)
      (displayEditUser 1 modestUser.toUserColumns) modestUser.toUserColumns =
        ⟨[], 1, 1997, 0⟩ := by decide +kernel
  have hcuts : processingEditUser .cuts (fun _ => false)
      (displayEditUser 1 modestUser.toUserColumns) modestUser.toUserColumns =
        ⟨[], 1, 1996, 0⟩ := by decide +kernel
  have hheavy : processingEditUser .rounds (fun _ => false)
      (displayEditUser 1 heavyUser.toUserColumns) heavyUser.toUserColumns =
        ⟨[], 1, 2, 0⟩ := by decide +kernel
  refine ⟨hrounds, hcuts, hheavy, ?_, ?_, ?_⟩
  · rw [SavesUnchanged, hrounds]
    exact fun h => absurd h.1 (by decide)
  · rw [SavesUnchanged, hcuts]
    exact fun h => absurd h.1 (by decide)
  · rw [SavesUnchanged, hheavy]
    exact fun h => absurd h.1 (by decide)

end IPStat
