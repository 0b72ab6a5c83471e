import IPStat.Collect.Message
import IPStat.Core.Convergence
import IPStat.System.Formats

namespace IPStat

/-- A row of Users, with the columns that the service asks for. -/
structure UsersAccount where
  login : List UInt8
  passwd : List UInt8
  addr : List UInt8
  deriving DecidableEq, Repr

/-- What fetch_row gives: a row of Users, or what else a statement selects that is not the one
intended; NULL is `none`. -/
inductive Fetched where
  | user (account : UsersAccount)
  | other (column : Option (List UInt8))
  deriving DecidableEq, Repr

/-- `row[0]`, of a query for one column. -/
def Fetched.column (f : UsersAccount → List UInt8) : Fetched → Option (List UInt8)
  | .user account => some (f account)
  | .other column => column

/-- How the calls of open, query and fetch_row come out. -/
inductive StoreOutcome where
  | notOpened
  | queryFailed
  | noRow
  | row (fetched : Fetched)
  deriving DecidableEq, Repr

def passwdSelect : List UInt8 := ascii "select Passwd from Users where Login = "

def addrSelect : List UInt8 := ascii "select Addr from Users where Login = "

/-- The store over a table, for the equality `same` of its texts. A statement that is one of the
two with one literal behind it selects the users whose login the literal is; of any other
statement nothing is known. -/
structure Store (same : List UInt8 → List UInt8 → Prop) (users : List UsersAccount) where
  answer : List UInt8 → StoreOutcome
  selects : ∀ {statement select literal}, select = passwdSelect ∨ select = addrSelect →
    Quoted.pieces .outside statement = some [select, literal, []] →
    match answer statement with
    | .row fetched => ∃ account ∈ users, fetched = .user account ∧ same account.login literal
    | .noRow => ∀ account ∈ users, ¬ same account.login literal
    | _ => True

/-- What memory holds before thr_pppd_client writes to it; `tmp` is the buffer with the byte of the
stack behind it, which takes the NUL of an address of ten digits. -/
structure PppdMemory where
  garbage : Garbage
  stack : XmlNode
  tmp : List UInt8
  tmpLength : tmp.length = tmpSize + 1

/-- The commands, by their first letters. -/
inductive PppdCommand where
  | auth
  | autz
  | accounting
  deriving DecidableEq, Repr

def pppdCommand (cmd : List UInt8) : Option PppdCommand :=
  if CString.strncmpEq 4 cmd (ascii "auth") then some .auth
  else if CString.strncmpEq 4 cmd (ascii "autz") then some .autz
  else if CString.strncmpEq 5 cmd (ascii "start") then some .accounting
  else if CString.strncmpEq 4 cmd (ascii "stop") then some .accounting
  else if CString.strncmpEq 7 cmd (ascii "interim") then some .accounting
  else none

/-- The string in a buffer of `size` bytes. -/
def CText.read (size : Nat) (buffer : List UInt8) : Option (CText size) :=
  match htext : CString.text buffer with
  | none => none
  | some s =>
    if fits : s.length < size then some ⟨s, (CString.eq_append_of_text htext).1, fits⟩ else none

/-- The decoded message, and the buffers that the service fills from it. -/
structure PppdRequest where
  sid : List XmlNode
  cmd : List UInt8
  login : CText 50

/-- thr_pppd_client up to the commands; the inner `none` is its way out at a message without a
command. -/
def readRequest (memory : PppdMemory) (buffer : List UInt8) : Option (Option PppdRequest) := do
  let sid ← xpathInit memory.garbage buffer
  let (cmd, found) ← xpathGetParam memory.stack sid (ascii "cmd") 50
  if found then
    let (login, _) ← xpathGetParam memory.stack sid (ascii "login") 50
    let login ← CText.read 50 login
    return some ⟨sid, cmd, login⟩
  else return none

/-- The pairs of an answer, as tree_addnode is given them. -/
abbrev Reply := List (List UInt8 × List UInt8)

/-- `passwd` behind the query of "auth"; a fetched NULL is read through. -/
def authPasswd (outcome : StoreOutcome) : Option (List UInt8) :=
  match outcome with
  | .notOpened => some []
  | .queryFailed => some []
  | .noRow => some []
  | .row fetched => do
    let row ← fetched.column UsersAccount.passwd
    let passwd ← CString.strncpy (List.replicate 50 0) (row ++ [0]) 49
    CString.text passwd

def authReply (passwd : List UInt8) : Reply :=
  if passwd = [] then
    [(ascii "error_code", ascii "ERR"), (ascii "message", ascii "error login")]
  else
    [(ascii "error_code", ascii "OK"), (ascii "password", passwd),
      (ascii "message", ascii "Permission accept")]

/-- `ip` behind the query of "autz". -/
def autzIp (inetAton : List UInt8 → Option IpAddr) (outcome : StoreOutcome) : Option IpAddr :=
  match outcome with
  | .notOpened => some 0
  | .queryFailed => some 0
  | .noRow => some 0
  | .row fetched => do
    let row ← fetched.column UsersAccount.addr
    return hostbyip inetAton (row.takeWhile (· ≠ 0))

/-- What "autz" answers in any case. -/
def autzAccept : Reply :=
  [(ascii "error_code", ascii "OK"), (ascii "session_id", ascii "1111"),
    (ascii "message", ascii "Permission accept")]

def autzReply (tmp : List UInt8) (ip : IpAddr) : Option Reply :=
  if ip ≠ 0 then do
    let tmp ← CString.sprintf tmp (fmtU ip)
    let address ← CString.text tmp
    return autzAccept ++ [(ascii "framed_address", address)]
  else some autzAccept

def accountingReply : Reply :=
  [(ascii "error_code", ascii "OK"), (ascii "session_id", ascii "111111111"),
    (ascii "message", ascii "Permission accept")]

/-- thr_pppd_client from the commands on; the inner `none` is an unknown one, which is not
answered. -/
def serveRequest (memory : PppdMemory) (inetAton : List UInt8 → Option IpAddr)
    (answer : List UInt8 → StoreOutcome) (request : PppdRequest) : Option (Option Reply) :=
  match pppdCommand request.cmd with
  | some .auth => do
    let passwd ← authPasswd (answer (passwdQuery request.login))
    return some (authReply passwd)
  | some .autz => do
    let ip ← autzIp inetAton (answer (addrQuery request.login))
    let reply ← autzReply memory.tmp ip
    return some reply
  | some .accounting => some (some accountingReply)
  | none => some none

def thrPppdClient (memory : PppdMemory) (inetAton : List UInt8 → Option IpAddr)
    (answer : List UInt8 → StoreOutcome) (buffer : List UInt8) : Option (Option Reply) := do
  match ← readRequest memory buffer with
  | none => return none
  | some request => serveRequest memory inetAton answer request

/-- The login that a message asks about: what its node holds, or nothing. -/
def PppdRequest.requestedLogin (request : PppdRequest) : List UInt8 :=
  match request.sid.find? fun node => CString.strncmpEq 49 node.key (ascii "login") with
  | none => []
  | some node => (node.value.take 254).takeWhile (· ≠ 0)

/-- The address of a user, as the service reads it. -/
def UsersAccount.ip (inetAton : List UInt8 → Option IpAddr) (account : UsersAccount) : IpAddr :=
  hostbyip inetAton (account.addr.takeWhile (· ≠ 0))

/-- A row of the login that was asked about came from the store, and the answer says what it
says. -/
def GoesByRow (same : List UInt8 → List UInt8 → Prop) (inetAton : List UInt8 → Option IpAddr)
    (answer : List UInt8 → StoreOutcome) (request : PppdRequest) (reply : Reply) : Prop :=
  match pppdCommand request.cmd with
  | some .auth => ∃ account, answer (passwdQuery request.login) = .row (.user account) ∧
      same account.login request.requestedLogin ∧ account.passwd ≠ [] ∧
      reply.lookup (ascii "password") = some account.passwd
  | some .autz => ∃ account, answer (addrQuery request.login) = .row (.user account) ∧
      same account.login request.requestedLogin ∧
      (account.ip inetAton ≠ 0 →
        reply.lookup (ascii "framed_address") = some (fmtU (account.ip inetAton)))
  | _ => True

/-- The service grants only known logins. -/
def GrantsKnown (same : List UInt8 → List UInt8 → Prop) (memory : PppdMemory)
    (inetAton : List UInt8 → Option IpAddr) (answer : List UInt8 → StoreOutcome)
    (buffer : List UInt8) : Prop :=
  ∀ request reply, readRequest memory buffer = some (some request) →
    thrPppdClient memory inetAton answer buffer = some (some reply) →
    reply.lookup (ascii "error_code") = some (ascii "OK") →
    GoesByRow same inetAton answer request reply

/-- The password goes through the buffer of 50 bytes as it is. -/
def UsersAccount.PasswdFits (account : UsersAccount) : Prop :=
  account.passwd.length ≤ 49 ∧ 0 ∉ account.passwd

/-- What the store gave is enough to go by. "auth" asks for a row that holds a password, and this
one has to be of the login and whole; "autz" asks for nothing, so a row of the login has to be
there, unless the column is NULL. -/
def Vouched (same : List UInt8 → List UInt8 → Prop)
    (answer : List UInt8 → StoreOutcome) (request : PppdRequest) : Prop :=
  match pppdCommand request.cmd with
  | some .auth => ∀ fetched row, answer (passwdQuery request.login) = .row fetched →
      fetched.column UsersAccount.passwd = some row → row.headD 0 ≠ 0 →
      ∃ account, fetched = .user account ∧ same account.login request.requestedLogin ∧
        account.PasswdFits
  | some .autz =>
      (∃ account, answer (addrQuery request.login) = .row (.user account) ∧
        same account.login request.requestedLogin) ∨
      ∃ fetched, answer (addrQuery request.login) = .row fetched ∧
        fetched.column UsersAccount.addr = none
  | _ => True

section
variable {same : List UInt8 → List UInt8 → Prop} {users : List UsersAccount}
  {memory : PppdMemory} {inetAton : List UInt8 → Option IpAddr}
  {answer : List UInt8 → StoreOutcome} {buffer : List UInt8} {request : PppdRequest}

theorem CText.text_of_read {size : Nat} {m : List UInt8} {s : CText size}
    (h : CText.read size m = some s) : CString.text m = some s.bytes := by
  unfold CText.read at h
  split at h
  · cases h
  · split_ifs at h with hfits
    cases h
    assumption

/-- The buffer holds the first 49 bytes of the login. -/
theorem readRequest_login (h : readRequest memory buffer = some (some request)) :
    request.login.bytes = request.requestedLogin.take 49 := by
  simp only [readRequest, Option.bind_eq_bind, Option.bind_eq_some_iff, Prod.exists] at h
  obtain ⟨sid, -, cmd, found, -, h⟩ := h
  have hfound : found = true := by
    by_contra hnot
    rw [if_neg hnot] at h
    cases h
  rw [if_pos hfound] at h
  simp only [Option.bind_eq_some_iff, Prod.exists, Option.pure_def, Option.some.injEq] at h
  obtain ⟨value, _, hparam, login, hread, rfl⟩ := h
  have htext := CText.text_of_read hread
  have hkey : (0 : UInt8) ∉ ascii "login" := by decide
  simp only [xpathGetParam, CString.strncpy_append hkey, CString.strncmpEq_put,
    Option.bind_eq_bind, Option.bind_some] at hparam
  simp only [PppdRequest.requestedLogin]
  cases hfind : sid.find? fun node => CString.strncmpEq 49 node.key (ascii "login") with
  | none =>
    simp only [hfind, Option.pure_def, Option.some.injEq, Prod.mk.injEq] at hparam
    obtain ⟨rfl, -⟩ := hparam
    simpa [CString.text, List.replicate_succ] using htext.symm
  | some node =>
    simp only [hfind, OfNat.ofNat_ne_zero, if_false, Option.pure_def,
      Option.bind_eq_some_iff, Option.some.injEq, Prod.mk.injEq] at hparam
    obtain ⟨copy, hcopy, rfl, -⟩ := hparam
    rw [CString.text_strncpy_cleared hcopy, Option.some.injEq] at htext
    show login.bytes = ((node.value.take 254).takeWhile (· ≠ 0)).take 49
    rw [← htext, List.take_takeWhile, List.take_take]
    rfl

/-- Without a row the two variables keep their first values. -/
theorem authPasswd_noRow {outcome : StoreOutcome} (h : ∀ fetched, outcome ≠ .row fetched) :
    authPasswd outcome = some [] := by
  cases outcome with
  | notOpened => rfl
  | queryFailed => rfl
  | noRow => rfl
  | row fetched => exact absurd rfl (h fetched)

theorem autzIp_noRow {outcome : StoreOutcome} (h : ∀ fetched, outcome ≠ .row fetched) :
    autzIp inetAton outcome = some 0 := by
  cases outcome with
  | notOpened => rfl
  | queryFailed => rfl
  | noRow => rfl
  | row fetched => exact absurd rfl (h fetched)

/-- The password that the service sends, as it stands in the buffer. -/
theorem authPasswd_row (fetched : Fetched) : authPasswd (.row fetched) =
    (fetched.column UsersAccount.passwd).map fun row => (row.takeWhile (· ≠ 0)).take 49 := by
  cases hcolumn : fetched.column UsersAccount.passwd with
  | none => simp [authPasswd, hcolumn]
  | some row =>
    obtain ⟨copy, hcopy⟩ : ∃ copy,
        CString.strncpy (List.replicate 50 0) (row ++ [0]) 49 = some copy := by
      obtain ⟨s, hrow⟩ : ∃ s, CString.text (row ++ [0]) = some s := by
        rw [CString.text_append_eq]
        split_ifs
        · exact ⟨_, rfl⟩
        · exact ⟨_, rfl⟩
      obtain ⟨hclean, r, hsplit⟩ := CString.eq_append_of_text hrow
      rw [hsplit, CString.strncpy_append hclean]
      exact ⟨_, rfl⟩
    have hshown : ((row ++ [0]).take 49).takeWhile (· ≠ 0) =
        (row.takeWhile (· ≠ 0)).take 49 := by
      rw [← List.take_takeWhile, List.takeWhile_append]
      split_ifs with hall
      · rw [(List.takeWhile_prefix _).eq_of_length hall]
        simp
      · rfl
    simp only [authPasswd, hcolumn, Option.bind_eq_bind, Option.bind_some, hcopy,
      CString.text_strncpy_cleared hcopy, hshown, Option.map_some]

theorem shown_eq_nil_iff (row : List UInt8) :
    (row.takeWhile (· ≠ 0)).take 49 = [] ↔ row.headD 0 = 0 := by
  cases row with
  | nil => simp
  | cons b row => by_cases hb : b = 0 <;> simp [hb]

theorem shown_eq_self_iff (account : UsersAccount) :
    (account.passwd.takeWhile (· ≠ 0)).take 49 = account.passwd ↔ account.PasswdFits := by
  have hclean : account.passwd.takeWhile (· ≠ 0) = account.passwd ↔ 0 ∉ account.passwd := by
    rw [List.takeWhile_eq_self_iff]
    constructor
    · intro h hzero
      simpa using h 0 hzero
    · intro h b hb
      simpa using fun hb0 : b = 0 => h (hb0 ▸ hb)
  constructor
  · intro h
    have hlength : ((account.passwd.takeWhile (· ≠ 0)).take 49).length = account.passwd.length := by
      rw [h]
    have hprefix := (List.takeWhile_prefix (· ≠ 0) (l := account.passwd)).length_le
    rw [List.length_take] at hlength
    refine ⟨by omega, hclean.mp ?_⟩
    apply (List.takeWhile_prefix (· ≠ 0) (l := account.passwd)).eq_of_length
    omega
  · intro h
    rw [hclean.mpr h.2, List.take_of_length_le h.1]

theorem authReply_ok_iff (passwd : List UInt8) :
    (authReply passwd).lookup (ascii "error_code") = some (ascii "OK") ↔ passwd ≠ [] := by
  by_cases hpasswd : passwd = []
  · rw [authReply, if_pos hpasswd]
    exact iff_of_false (by decide) (not_not.mpr hpasswd)
  · rw [authReply, if_neg hpasswd, List.lookup_cons_self]
    exact iff_of_true rfl hpasswd

theorem authReply_password {passwd : List UInt8} (h : passwd ≠ []) :
    (authReply passwd).lookup (ascii "password") = some passwd := by
  have hkeys : (ascii "password" == ascii "error_code") = false := by decide
  rw [authReply, if_neg h, List.lookup_cons, hkeys]
  exact List.lookup_cons_self

theorem thrPppdClient_eq (h : readRequest memory buffer = some (some request)) :
    thrPppdClient memory inetAton answer buffer = serveRequest memory inetAton answer request := by
  simp [thrPppdClient, h]

theorem grants_auth_iff (hcmd : pppdCommand request.cmd = some .auth) :
    (∀ reply, serveRequest memory inetAton answer request = some (some reply) →
      reply.lookup (ascii "error_code") = some (ascii "OK") →
      GoesByRow same inetAton answer request reply) ↔ Vouched same answer request := by
  simp only [serveRequest, hcmd, GoesByRow, Vouched]
  constructor
  · intro h fetched row houtcome hcolumn hhead
    have hshown : (row.takeWhile (· ≠ 0)).take 49 ≠ [] :=
      fun hnil => hhead ((shown_eq_nil_iff row).mp hnil)
    obtain ⟨account, hsame, hlogin, -, hpasswd⟩ := h _ (by
      rw [houtcome, authPasswd_row, hcolumn]
      rfl) ((authReply_ok_iff _).mpr hshown)
    rw [houtcome, StoreOutcome.row.injEq] at hsame
    subst hsame
    cases hcolumn
    rw [authReply_password hshown, Option.some.injEq] at hpasswd
    exact ⟨account, rfl, hlogin, (shown_eq_self_iff account).mp hpasswd⟩
  · intro h reply hreply hok
    obtain ⟨passwd, hpasswd, hsent⟩ := Option.bind_eq_some_iff.mp hreply
    cases hsent
    have hshown := (authReply_ok_iff passwd).mp hok
    by_cases hfetched : ∃ fetched, answer (passwdQuery request.login) = .row fetched
    · obtain ⟨fetched, houtcome⟩ := hfetched
      rw [houtcome, authPasswd_row] at hpasswd
      obtain ⟨row, hcolumn, rfl⟩ := Option.map_eq_some_iff.mp hpasswd
      have hhead : row.headD 0 ≠ 0 := fun hzero => hshown ((shown_eq_nil_iff row).mpr hzero)
      obtain ⟨account, rfl, hlogin, hfits⟩ := h fetched row houtcome hcolumn hhead
      cases hcolumn
      have hwhole := (shown_eq_self_iff account).mpr hfits
      rw [hwhole] at hshown ⊢
      exact ⟨account, houtcome, hlogin, hshown, authReply_password hshown⟩
    · rw [authPasswd_noRow fun fetched houtcome => hfetched ⟨fetched, houtcome⟩] at hpasswd
      cases hpasswd
      exact absurd rfl hshown

/-- "autz" accepts, and sends the address it has, of ten digits too. -/
theorem autzReply_accepts {tmp : List UInt8} (htmp : tmp.length = tmpSize + 1) (ip : IpAddr) :
    ∃ reply, autzReply tmp ip = some reply ∧
      reply.lookup (ascii "error_code") = some (ascii "OK") ∧
      (ip ≠ 0 → reply.lookup (ascii "framed_address") = some (fmtU ip)) := by
  by_cases hip : ip = 0
  · exact ⟨autzAccept, by simp [autzReply, hip], List.lookup_cons_self, fun h => absurd hip h⟩
  · have hfits : (fmtU ip).length < tmp.length := by
      have hdigits : (fmtU ip).length ≤ 10 :=
        (length_fmtU_le_iff ip (by decide)).mpr (by have hlt := ip.toNat_lt; omega)
      rw [htmp, tmpSize]
      omega
    have htext : CString.text (fmtU ip ++ 0 :: tmp.drop ((fmtU ip).length + 1)) =
        some (fmtU ip) := CString.text_append (not_mem_numeral (by decide) _) _
    have hkeys : (ascii "framed_address" == ascii "error_code") = false ∧
        (ascii "framed_address" == ascii "session_id") = false ∧
        (ascii "framed_address" == ascii "message") = false := by
      decide
    refine ⟨autzAccept ++ [(ascii "framed_address", fmtU ip)], ?_, List.lookup_cons_self, ?_⟩
    · simp [autzReply, hip, CString.sprintf, hfits, htext]
    · simp [autzAccept, List.lookup_cons, hkeys]

/-- Without a row "autz" answers all the same, and no one vouches for it. -/
theorem autz_noRow (hcmd : pppdCommand request.cmd = some .autz)
    (hnone : ∀ fetched, answer (addrQuery request.login) ≠ .row fetched) :
    serveRequest memory inetAton answer request = some (some autzAccept) ∧
      ¬ Vouched same answer request := by
  constructor
  · simp [serveRequest, hcmd, autzIp_noRow hnone, autzReply]
  · simp [Vouched, hcmd, hnone]

/-- With a row it answers unless the column is NULL. -/
theorem autz_row {fetched : Fetched} (hcmd : pppdCommand request.cmd = some .autz)
    (houtcome : answer (addrQuery request.login) = .row fetched) :
    serveRequest memory inetAton answer request = none ∧
        fetched.column UsersAccount.addr = none ∨
      ∃ row reply, fetched.column UsersAccount.addr = some row ∧
        serveRequest memory inetAton answer request = some (some reply) ∧
        reply.lookup (ascii "error_code") = some (ascii "OK") ∧
        (hostbyip inetAton (row.takeWhile (· ≠ 0)) ≠ 0 →
          reply.lookup (ascii "framed_address") =
            some (fmtU (hostbyip inetAton (row.takeWhile (· ≠ 0))))) := by
  cases hcolumn : fetched.column UsersAccount.addr with
  | none =>
    left
    exact ⟨by simp [serveRequest, hcmd, houtcome, autzIp, hcolumn], rfl⟩
  | some row =>
    right
    obtain ⟨ip, hip⟩ : ∃ ip, ip = hostbyip inetAton (row.takeWhile (· ≠ 0)) := ⟨_, rfl⟩
    have hserve : serveRequest memory inetAton answer request =
        (autzReply memory.tmp ip).map some := by
      rw [hip]
      simp [serveRequest, hcmd, houtcome, autzIp, hcolumn, Option.map_eq_bind]
    obtain ⟨reply, hreply, hok, haddress⟩ := autzReply_accepts memory.tmpLength ip
    rw [hip] at haddress
    exact ⟨row, reply, rfl, by rw [hserve, hreply, Option.map_some], hok, haddress⟩

theorem grants_autz_iff (hcmd : pppdCommand request.cmd = some .autz) :
    (∀ reply, serveRequest memory inetAton answer request = some (some reply) →
      reply.lookup (ascii "error_code") = some (ascii "OK") →
      GoesByRow same inetAton answer request reply) ↔ Vouched same answer request := by
  by_cases hfetched : ∃ fetched, answer (addrQuery request.login) = .row fetched
  · obtain ⟨fetched, houtcome⟩ := hfetched
    simp only [GoesByRow, Vouched, hcmd, houtcome]
    obtain ⟨hfault, hnull⟩ | ⟨row, reply, hcolumn, hreply, hok, haddress⟩ :=
      @autz_row memory inetAton answer request fetched hcmd houtcome
    · apply iff_of_true
      · intro reply hreply
        rw [hfault] at hreply
        cases hreply
      · exact .inr ⟨fetched, rfl, hnull⟩
    · constructor
      · intro h
        obtain ⟨account, hsame, hlogin, -⟩ := h reply hreply hok
        exact .inl ⟨account, hsame, hlogin⟩
      · intro h reply' hreply' _
        rw [hreply] at hreply'
        cases hreply'
        obtain ⟨account, hsame, hlogin⟩ | ⟨fetched', hsame, hnull⟩ := h
        · cases hsame
          cases hcolumn
          exact ⟨account, rfl, hlogin, haddress⟩
        · cases hsame
          rw [hnull] at hcolumn
          cases hcolumn
  · have hnone : ∀ fetched, answer (addrQuery request.login) ≠ .row fetched :=
      fun fetched houtcome => hfetched ⟨fetched, houtcome⟩
    obtain ⟨hanswer, hunvouched⟩ :=
      @autz_noRow same memory inetAton answer request hcmd hnone
    apply iff_of_false _ hunvouched
    intro h
    have hgoes := h autzAccept hanswer List.lookup_cons_self
    simp [GoesByRow, hcmd, hnone] at hgoes

theorem grants_request_iff :
    (∀ reply, serveRequest memory inetAton answer request = some (some reply) →
      reply.lookup (ascii "error_code") = some (ascii "OK") →
      GoesByRow same inetAton answer request reply) ↔ Vouched same answer request := by
  cases hcmd : pppdCommand request.cmd with
  | none => simp [GoesByRow, Vouched, hcmd]
  | some command =>
    cases command with
    | auth => exact grants_auth_iff hcmd
    | autz => exact grants_autz_iff hcmd
    | accounting => simp [GoesByRow, Vouched, hcmd]

theorem grantsKnown_iff_vouched : GrantsKnown same memory inetAton answer buffer ↔
    ∀ request, readRequest memory buffer = some (some request) →
      Vouched same answer request := by
  constructor
  · intro h request hread
    apply grants_request_iff.mp
    intro reply hreply
    exact h request reply hread (by rwa [thrPppdClient_eq hread])
  · intro h request reply hread hreply
    rw [thrPppdClient_eq hread] at hreply
    exact grants_request_iff.mpr (h request hread) reply hreply

/-- A login that MySQL reads as it is written selects the users of that login. -/
theorem query_selects (store : Store same users)
    (hread : readRequest memory buffer = some (some request))
    (hverbatim : Quoted.Verbatim request.requestedLogin)
    (hshort : request.requestedLogin.length ≤ 49) :
    ∀ statement, statement = passwdQuery request.login ∨ statement = addrQuery request.login →
      match store.answer statement with
      | .row fetched => ∃ account ∈ users, fetched = .user account ∧
          same account.login request.requestedLogin
      | .noRow => ∀ account ∈ users, ¬ same account.login request.requestedLogin
      | _ => True := by
  have hlogin : request.login.bytes = request.requestedLogin := by
    rw [readRequest_login hread, List.take_of_length_le hshort]
  intro statement hstatement
  obtain rfl | rfl := hstatement
  · apply store.selects (.inl rfl)
    rw [passwdQuery, hlogin, show ascii "select Passwd from Users where Login = '" =
      passwdSelect ++ [39] by decide]
    exact (quoted_last_iff (by decide) _).mpr hverbatim
  · apply store.selects (.inr rfl)
    rw [addrQuery, hlogin, show ascii "select Addr from Users where Login = '" =
      addrSelect ++ [39] by decide]
    exact (quoted_last_iff (by decide) _).mpr hverbatim

/-- What is left of the condition for a login that reaches MySQL as it is: "auth" is right about
every password that fits its buffer, and "autz" about the logins that the store does find. -/
def VouchedByStore (store : Store same users) (request : PppdRequest) : Prop :=
  match pppdCommand request.cmd with
  | some .auth => ∀ account, store.answer (passwdQuery request.login) = .row (.user account) →
      account.passwd.headD 0 ≠ 0 → account.PasswdFits
  | some .autz => store.answer (addrQuery request.login) ≠ .notOpened ∧
      store.answer (addrQuery request.login) ≠ .queryFailed ∧
      ∃ account ∈ users, same account.login request.requestedLogin
  | _ => True

theorem vouched_iff_byStore (store : Store same users)
    (hread : readRequest memory buffer = some (some request))
    (hverbatim : Quoted.Verbatim request.requestedLogin)
    (hshort : request.requestedLogin.length ≤ 49) :
    Vouched same store.answer request ↔ VouchedByStore store request := by
  have hselects := query_selects store hread hverbatim hshort
  unfold Vouched VouchedByStore
  cases hcmd : pppdCommand request.cmd with
  | none => exact Iff.rfl
  | some command =>
    cases command with
    | auth =>
      have hauth := hselects _ (.inl rfl)
      constructor
      · intro h account hrow hhead
        obtain ⟨account', hsame, -, hfits⟩ := h _ _ hrow rfl hhead
        cases hsame
        exact hfits
      · intro h fetched row hrow hcolumn hhead
        rw [hrow] at hauth
        obtain ⟨account, -, rfl, hlogin⟩ := hauth
        cases hcolumn
        exact ⟨account, rfl, hlogin, h account hrow hhead⟩
    | autz =>
      have hautz := hselects _ (.inr rfl)
      dsimp only
      cases houtcome : store.answer (addrQuery request.login) with
      | notOpened => simp
      | queryFailed => simp
      | noRow =>
        rw [houtcome] at hautz
        simpa using hautz
      | row fetched =>
        rw [houtcome] at hautz
        obtain ⟨account, hmem, rfl, hlogin⟩ := hautz
        apply iff_of_true
        · exact .inl ⟨account, rfl, hlogin⟩
        · exact ⟨by simp, by simp, account, hmem, hlogin⟩
    | accounting => exact Iff.rfl

end

/-- For every message, store and state of memory: the service grants only known logins exactly
when the store vouches for its answers. -/
theorem grants_known_iff {same : List UInt8 → List UInt8 → Prop} {users : List UsersAccount}
    (store : Store same users) (memory : PppdMemory) (inetAton : List UInt8 → Option IpAddr)
    (buffer : List UInt8) :
    (GrantsKnown same memory inetAton store.answer buffer ↔
      ∀ request, readRequest memory buffer = some (some request) →
        Vouched same store.answer request) ∧
    ∀ request, readRequest memory buffer = some (some request) →
      Quoted.Verbatim request.requestedLogin → request.requestedLogin.length ≤ 49 →
      (Vouched same store.answer request ↔ VouchedByStore store request) :=
  ⟨grantsKnown_iff_vouched, fun _ hread => vouched_iff_byStore store hread⟩

/-- A store over a table that compares bytes; `other` is what it says to any other statement. -/
def tableStore (users : List UsersAccount) (other : StoreOutcome) : Store Eq users where
  answer statement :=
    match Quoted.pieces .outside statement with
    | some [select, literal, []] =>
      if select = passwdSelect ∨ select = addrSelect then
        match users.find? fun account => account.login = literal with
        | some account => .row (.user account)
        | none => .noRow
      else other
    | _ => other
  selects := by
    intro statement select literal hselect hpieces
    simp only [hpieces, if_pos hselect]
    cases hfind : users.find? fun account => account.login = literal with
    | none => simpa using hfind
    | some account =>
      exact ⟨account, List.mem_of_find?_eq_some hfind, rfl, by simpa using List.find?_some hfind⟩

/-- A store that cannot be opened, over any table. -/
def closedStore (users : List UsersAccount) : Store Eq users where
  answer _ := .notOpened
  selects _ _ := trivial

def clearMemory : PppdMemory where
  garbage := ⟨fun _ => 0, List.replicate 2048 0, fun _ => some ⟨List.replicate 50 0,
    List.replicate 255 0⟩⟩
  stack := ⟨List.replicate 50 0, List.replicate 255 0⟩
  tmp := List.replicate 11 0
  tmpLength := rfl

def rootAccount : UsersAccount := ⟨ascii "root", ascii "secret", ascii "10.0.0.1"⟩

/-- The message of a command for a login. -/
def pppdMessage (cmd login : String) : List UInt8 :=
  ascii "cmd=" ++ ascii cmd ++ 10 :: (ascii "login=" ++ ascii login ++ [10])

/-- inet_aton of the one address that is asked for, on a host that stores its low byte first. -/
def rootAton (host : List UInt8) : Option IpAddr :=
  if host = ascii "10.0.0.1" then some 16777226 else none

/-- What a request comes to: its command, and the logins in the buffer and in the message. -/
def PppdRequest.parts (request : PppdRequest) : Option PppdCommand × List UInt8 × List UInt8 :=
  (pppdCommand request.cmd, request.login.bytes, request.requestedLogin)

theorem read_of_parts {memory : PppdMemory} {buffer : List UInt8} {command : Option PppdCommand}
    {login requested : List UInt8}
    (h : (readRequest memory buffer).map (Option.map PppdRequest.parts) =
      some (some (command, login, requested))) :
    ∃ request, readRequest memory buffer = some (some request) ∧
      pppdCommand request.cmd = command ∧ request.login.bytes = login ∧
        request.requestedLogin = requested := by
  obtain ⟨inner, hinner, hparts⟩ := Option.map_eq_some_iff.mp h
  obtain ⟨request, rfl, hrequest⟩ := Option.map_eq_some_iff.mp hparts
  cases hrequest
  exact ⟨request, hinner, rfl, rfl, rfl⟩

theorem not_granted_autz {same : List UInt8 → List UInt8 → Prop} {memory : PppdMemory}
    {inetAton : List UInt8 → Option IpAddr} {answer : List UInt8 → StoreOutcome}
    {buffer : List UInt8} (login requested : List UInt8)
    (hparts : (readRequest memory buffer).map (Option.map PppdRequest.parts) =
      some (some (some .autz, login, requested)))
    (hnone : ∀ request : PppdRequest, request.login.bytes = login →
      ∀ fetched, answer (addrQuery request.login) ≠ .row fetched) :
    ¬ GrantsKnown same memory inetAton answer buffer := by
  obtain ⟨request, hread, hcmd, hlogin, -⟩ := read_of_parts hparts
  rw [grantsKnown_iff_vouched]
  intro h
  exact (@autz_noRow same memory inetAton answer request hcmd (hnone request hlogin)).2
    (h request hread)

/-- The user of the table is let in, with its password and its address. -/
theorem grants_known_root :
    thrPppdClient clearMemory rootAton (tableStore [rootAccount] .queryFailed).answer
        (pppdMessage "auth" "root") = some (some (authReply (ascii "secret"))) ∧
      thrPppdClient clearMemory rootAton (tableStore [rootAccount] .queryFailed).answer
        (pppdMessage "autz" "root") =
          some (some (autzAccept ++ [(ascii "framed_address", ascii "16777226")])) ∧
      GrantsKnown Eq clearMemory rootAton (tableStore [rootAccount] .queryFailed).answer
        (pppdMessage "auth" "root") := by
  have hiff := grants_known_iff (tableStore [rootAccount] .queryFailed) clearMemory rootAton
    (pppdMessage "auth" "root")
  refine ⟨by decide +kernel, by decide +kernel, hiff.1.mpr ?_⟩
  intro request hread
  have hparts : (readRequest clearMemory (pppdMessage "auth" "root")).map
      (Option.map PppdRequest.parts) = some (some (some .auth, ascii "root", ascii "root")) := by
    decide +kernel
  obtain ⟨request', hread', hcmd, hlogin, hrequested⟩ := read_of_parts hparts
  rw [hread] at hread'
  cases hread'
  apply (hiff.2 request hread ?_ ?_).mpr
  · unfold VouchedByStore
    rw [hcmd]
    intro account hrow _
    have hroot : (tableStore [rootAccount] .queryFailed).answer (passwdQuery request.login) =
        .row (.user rootAccount) := by
      rw [passwdQuery, hlogin]
      decide +kernel
    rw [hroot] at hrow
    cases hrow
    exact ⟨by decide, by decide⟩
  · rw [hrequested]
    exact (@quoted_last_iff passwdSelect (by decide) _).mp (by decide +kernel)
  · rw [hrequested]
    decide

/-- A user whose address is a number of ten digits. -/
def farAccount : UsersAccount := ⟨ascii "far", ascii "secret", ascii "192.168.0.100"⟩

def farAton (host : List UInt8) : Option IpAddr :=
  if host = ascii "192.168.0.100" then some 1677764800 else none

/-- "autz" lets a login in that no one has, and any login while the database is away; "auth" tells
the password of a user who was not asked about, and "autz" the address of one. -/
theorem grants_unknown :
    thrPppdClient clearMemory rootAton (tableStore [] .queryFailed).answer
        (pppdMessage "autz" "nobody") = some (some autzAccept) ∧
      thrPppdClient clearMemory rootAton (closedStore [rootAccount]).answer
        (pppdMessage "autz" "root") = some (some autzAccept) ∧
      thrPppdClient clearMemory rootAton
        (tableStore [rootAccount] (.row (.user rootAccount))).answer
        (pppdMessage "auth" "' or '1'='1") = some (some (authReply (ascii "secret"))) ∧
      thrPppdClient clearMemory farAton (tableStore [farAccount] (.row (.user farAccount))).answer
        (pppdMessage "autz" "' or '1'='1") =
          some (some (autzAccept ++ [(ascii "framed_address", ascii "1677764800")])) ∧
      ¬ GrantsKnown Eq clearMemory rootAton (tableStore [] .queryFailed).answer
        (pppdMessage "autz" "nobody") ∧
      ¬ GrantsKnown Eq clearMemory rootAton (closedStore [rootAccount]).answer
        (pppdMessage "autz" "root") ∧
      ¬ GrantsKnown Eq clearMemory rootAton
        (tableStore [rootAccount] (.row (.user rootAccount))).answer
        (pppdMessage "auth" "' or '1'='1") ∧
      ¬ GrantsKnown Eq clearMemory farAton
        (tableStore [farAccount] (.row (.user farAccount))).answer
        (pppdMessage "autz" "' or '1'='1") := by
  refine ⟨by decide +kernel, by decide +kernel, by decide +kernel, by decide +kernel, ?_, ?_, ?_,
    ?_⟩
  · apply not_granted_autz (ascii "nobody") (ascii "nobody") (by decide +kernel)
    intro request hlogin fetched
    have hnone : (tableStore [] .queryFailed).answer (addrQuery request.login) = .noRow := by
      rw [addrQuery, hlogin]
      decide +kernel
    rw [hnone]
    exact StoreOutcome.noConfusion
  · apply not_granted_autz (ascii "root") (ascii "root") (by decide +kernel)
    intro request hlogin fetched
    exact StoreOutcome.noConfusion
  · have hparts : (readRequest clearMemory (pppdMessage "auth" "' or '1'='1")).map
        (Option.map PppdRequest.parts) =
          some (some (some .auth, ascii "' or '1'='1", ascii "' or '1'='1")) := by
      decide +kernel
    obtain ⟨request, hread, hcmd, hlogin, hrequested⟩ := read_of_parts hparts
    have hroot : (tableStore [rootAccount] (.row (.user rootAccount))).answer
        (passwdQuery request.login) = .row (.user rootAccount) := by
      rw [passwdQuery, hlogin]
      decide +kernel
    rw [grantsKnown_iff_vouched]
    intro h
    have hvouched := h request hread
    unfold Vouched at hvouched
    rw [hcmd] at hvouched
    obtain ⟨account, hsame, hrow, -⟩ := hvouched _ _ hroot rfl (by decide)
    cases hsame
    rw [hrequested] at hrow
    exact absurd hrow (by decide)
  · have hparts : (readRequest clearMemory (pppdMessage "autz" "' or '1'='1")).map
        (Option.map PppdRequest.parts) =
          some (some (some .autz, ascii "' or '1'='1", ascii "' or '1'='1")) := by
      decide +kernel
    obtain ⟨request, hread, hcmd, hlogin, hrequested⟩ := read_of_parts hparts
    have hfar : (tableStore [farAccount] (.row (.user farAccount))).answer
        (addrQuery request.login) = .row (.user farAccount) := by
      rw [addrQuery, hlogin]
      decide +kernel
    rw [grantsKnown_iff_vouched]
    intro h
    have hvouched := h request hread
    unfold Vouched at hvouched
    rw [hcmd] at hvouched
    obtain ⟨account, hsame, hrow⟩ | ⟨fetched, hsame, hnull⟩ := hvouched
    · rw [hfar] at hsame
      cases hsame
      rw [hrequested] at hrow
      exact absurd hrow (by decide)
    · rw [hfar] at hsame
      cases hsame
      cases hnull

end IPStat
