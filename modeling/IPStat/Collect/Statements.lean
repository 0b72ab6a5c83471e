import IPStat.Lib.Numeral
import IPStat.Lib.Quoted
import IPStat.Types

namespace IPStat

/-- The bytes of a text in ASCII. -/
def ascii (s : String) : List UInt8 := s.toList.map fun c => UInt8.ofNat c.toNat

/-- The string in a buffer of `size` bytes. -/
structure CText (size : Nat) where
  bytes : List UInt8
  noNul : 0 ∉ bytes
  fits : bytes.length < size

/-- sprintf's %u and %d of a 32-bit number. -/
def fmtU (n : UInt32) : List UInt8 := Numeral.text (Numeral.ofNat n.toNat)

def fmtD (n : UInt32) : List UInt8 :=
  if n.toNat < 2 ^ 31 then fmtU n else 45 :: Numeral.text (Numeral.ofNat (2 ^ 32 - n.toNat))

/-- The queries of thr_pppd_client, for "auth" and for "autz"; `login` is the buffer of
_MAX_LENGTH_LOGIN bytes that xpath_get_param fills. -/
def passwdQuery (login : CText 50) : List UInt8 :=
  ascii "select Passwd from Users where Login = '" ++ login.bytes ++ ascii "'"

def addrQuery (login : CText 50) : List UInt8 :=
  ascii "select Addr from Users where Login = '" ++ login.bytes ++ ascii "'"

/-- The statement of squid_export. -/
def squidInsert (idUser : IpId) (url : CText 1024) (traffic : IpSize) : List UInt8 :=
  ascii "insert into Log_Squid (Time, id_user, URL, Traffic) values (NOW(), " ++ fmtD idUser ++
    ascii ", '" ++ url.bytes ++ ascii "', " ++ fmtU traffic ++ ascii ")"

theorem not_mem_numeral {b : UInt8} (hb : Numeral.isDigit b = false) (ds : List (Fin 10)) :
    b ∉ Numeral.text ds := by
  intro hm
  exact Numeral.ne_of_mem_text hb hm rfl

theorem quote_not_mem_fmtU (n : UInt32) : 39 ∉ fmtU n := not_mem_numeral (by decide) _

theorem quote_not_mem_fmtD (n : UInt32) : 39 ∉ fmtD n := by
  unfold fmtD
  split_ifs
  · exact quote_not_mem_fmtU n
  · simp [not_mem_numeral (b := 39) (by decide)]

/-- A statement that ends in its only literal. -/
theorem quoted_last_iff {pre : List UInt8} (hpre : 39 ∉ pre) (text : List UInt8) :
    Quoted.pieces .outside (pre ++ [39] ++ text ++ ascii "'") = some [pre, text, []] ↔
      Quoted.Verbatim text := by
  have hstmt : pre ++ [39] ++ text ++ ascii "'" = pre ++ 39 :: (text ++ 39 :: []) := by
    rw [show ascii "'" = [39] by decide]
    simp
  rw [hstmt]
  exact Quoted.pieces_quoted_iff hpre (by simp)

/-- No statement escapes the text it quotes: it is the value of one literal exactly when it holds
no quote, and no backslash but those that MySQL keeps. -/
theorem statements_quote_iff (login : CText 50) (idUser : IpId) (url : CText 1024)
    (traffic : IpSize) :
    (Quoted.pieces .outside (passwdQuery login) =
        some [ascii "select Passwd from Users where Login = ", login.bytes, []] ↔
      Quoted.Verbatim login.bytes) ∧
    (Quoted.pieces .outside (addrQuery login) =
        some [ascii "select Addr from Users where Login = ", login.bytes, []] ↔
      Quoted.Verbatim login.bytes) ∧
    (Quoted.pieces .outside (squidInsert idUser url traffic) =
        some [ascii "insert into Log_Squid (Time, id_user, URL, Traffic) values (NOW(), " ++
          fmtD idUser ++ ascii ", ", url.bytes, ascii ", " ++ fmtU traffic ++ ascii ")"] ↔
      Quoted.Verbatim url.bytes) := by
  refine ⟨?_, ?_, ?_⟩
  · rw [passwdQuery, show ascii "select Passwd from Users where Login = '" =
      ascii "select Passwd from Users where Login = " ++ [39] by decide]
    exact quoted_last_iff (by decide) login.bytes
  · rw [addrQuery, show ascii "select Addr from Users where Login = '" =
      ascii "select Addr from Users where Login = " ++ [39] by decide]
    exact quoted_last_iff (by decide) login.bytes
  · have hstmt : squidInsert idUser url traffic =
        (ascii "insert into Log_Squid (Time, id_user, URL, Traffic) values (NOW(), " ++
          fmtD idUser ++ ascii ", ") ++
          39 :: (url.bytes ++ 39 :: (ascii ", " ++ fmtU traffic ++ ascii ")")) := by
      rw [squidInsert, show ascii ", '" = ascii ", " ++ [39] by decide,
        show ascii "', " = 39 :: ascii ", " by decide]
      simp
    have hfixed : (39 : UInt8) ∉
          ascii "insert into Log_Squid (Time, id_user, URL, Traffic) values (NOW(), " ∧
        (39 : UInt8) ∉ ascii ", " ∧ (39 : UInt8) ∉ ascii ")" := by
      decide
    rw [hstmt]
    apply Quoted.pieces_quoted_iff
    · simp [hfixed, quote_not_mem_fmtD]
    · simp [hfixed, quote_not_mem_fmtU]

/-- A login that closes the literal and goes on as SQL: ' or '1'='1 -/
def openLogin : CText 50 := ⟨ascii "' or '1'='1", by decide, by decide⟩

/-- A URL whose last byte escapes the closing quote. -/
def slashUrl : CText 1024 := ⟨ascii "http://a/\\", by decide, by decide⟩

set_option maxRecDepth 2000 in
theorem statement_escaped :
    Quoted.pieces .outside (passwdQuery openLogin) =
        some [ascii "select Passwd from Users where Login = ", [], ascii " or ", ascii "1",
          ascii "=", ascii "1", []] ∧
      Quoted.pieces .outside (squidInsert 1 slashUrl 10) = none := by
  constructor
  · decide
  · decide

end IPStat
