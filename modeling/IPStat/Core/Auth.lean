import IPStat.Core.Users

namespace IPStat

/-- A request whose `ret` may be NULL. -/
inductive AuthRequest where
  | traffic (info : PacketInfo) (ret : Option PacketDataInfo)
  | squid (info : SquidInfo) (ret : Option SquidDataInfo)
  | other (service : Service)
  deriving DecidableEq, Repr

/-- users_auth without hooks; `none` is a write through the NULL `ret`. -/
def usersAuthBare (users : Users) : AuthRequest → Option (Bool × AuthRequest)
  | .traffic info ret =>
    let tSrc := addrFind users info.src
    let tDest := addrFind users info.dest
    if ret.isNone ∧ (tSrc.isSome ∨ tDest.isSome) then some (true, .traffic info ret)
    else
      match ret with
      | none => none
      | some ret =>
        let (flag, ret) := authTraffic users info ret
        some (flag, .traffic info (some ret))
  | .squid info ret =>
    if ret.isNone ∧ (addrFind users info.ip).isSome then some (true, .squid info ret)
    else
      match ret with
      | none => none
      | some ret =>
        let (flag, ret) := authSquid users info ret
        some (flag, .squid info (some ret))
  | .other service => some (false, .other service)

/-- The same request with its buffer, and with NULL in its place. -/
def Request.buffered : Request → AuthRequest
  | .traffic info ret => .traffic info (some ret)
  | .squid info ret => .squid info (some ret)
  | .other service => .other service

def Request.unbuffered : Request → AuthRequest
  | .traffic info _ => .traffic info none
  | .squid info _ => .squid info none
  | .other service => .other service

/-- The hook lists with no one registered for users_auth. -/
def Hooks.withoutAuth {π : Type} (hooks : Hooks π) : Hooks π := { hooks with externAuth := [] }

/-- With NULL in the place of the buffer users_auth returns, and TRUE exactly when `answer` is. -/
def AnswersWithoutBuffer (users : Users) (req : Request) (answer : Bool) : Prop :=
  ∃ flag, usersAuthBare users req.unbuffered = some (flag, req.unbuffered) ∧
    (flag = true ↔ answer = true)

/-- One end of the packet is a user's and the other is not; the client of a proxy is a user. -/
def OneUser (users : Users) : Request → Prop
  | .traffic info _ => (addrFind users info.src).isSome ≠ (addrFind users info.dest).isSome
  | .squid info _ => (addrFind users info.ip).isSome
  | .other _ => True

section
variable {π : Type} {users : Users}

/-- With a buffer and no hooks, nothing but the tables decides. -/
theorem usersAuth_bare (hooks : Hooks π) (flagExtern : Bool) (req : Request) (p : π) :
    usersAuthBare users req.buffered =
      some ((usersAuth hooks.withoutAuth users flagExtern req p).flag,
        (usersAuth hooks.withoutAuth users flagExtern req p).req.buffered) := by
  cases req <;> simp [usersAuthBare, usersAuth, Hooks.withoutAuth, Request.buffered]

theorem authTraffic_flag (info : PacketInfo) (ret : PacketDataInfo) :
    (authTraffic users info ret).1 = true ↔
      (addrFind users info.src).isSome ≠ (addrFind users info.dest).isSome := by
  rw [authTraffic]
  cases addrFind users info.src <;> cases addrFind users info.dest <;> simp

theorem authSquid_flag (info : SquidInfo) (ret : SquidDataInfo) :
    (authSquid users info ret).1 = true ↔ (addrFind users info.ip).isSome := by
  rw [authSquid]
  cases addrFind users info.ip <;> simp

theorem answersWithoutBuffer_traffic (info : PacketInfo) (ret : PacketDataInfo) :
    AnswersWithoutBuffer users (.traffic info ret) (authTraffic users info ret).1 ↔
      (addrFind users info.src).isSome ≠ (addrFind users info.dest).isSome := by
  rw [AnswersWithoutBuffer, authTraffic_flag]
  by_cases hknown : (addrFind users info.src).isSome ∨ (addrFind users info.dest).isSome
  · have hnull : usersAuthBare users (Request.traffic info ret).unbuffered =
        some (true, (Request.traffic info ret).unbuffered) := by
      simp [usersAuthBare, Request.unbuffered, hknown]
    rw [hnull]
    constructor
    · intro h
      obtain ⟨flag, hn, hagree⟩ := h
      cases hn
      exact hagree.mp rfl
    · intro h
      exact ⟨true, rfl, iff_of_true rfl h⟩
  · -- two strangers: what is written to `ret` comes first
    simp only [not_or, Bool.not_eq_true] at hknown
    have hnull : usersAuthBare users (Request.traffic info ret).unbuffered = none := by
      simp [usersAuthBare, Request.unbuffered, hknown.1, hknown.2]
    rw [hnull, hknown.1, hknown.2]
    simp

theorem answersWithoutBuffer_squid (info : SquidInfo) (ret : SquidDataInfo) :
    AnswersWithoutBuffer users (.squid info ret) (authSquid users info ret).1 ↔
      (addrFind users info.ip).isSome := by
  rw [AnswersWithoutBuffer, authSquid_flag]
  cases hknown : (addrFind users info.ip).isSome with
  | true =>
    have hnull : usersAuthBare users (Request.squid info ret).unbuffered =
        some (true, (Request.squid info ret).unbuffered) := by
      simp [usersAuthBare, Request.unbuffered, hknown]
    exact iff_of_true ⟨true, hnull, Iff.rfl⟩ rfl
  | false =>
    have hnull : usersAuthBare users (Request.squid info ret).unbuffered = none := by
      simp [usersAuthBare, Request.unbuffered, hknown]
    rw [hnull]
    simp

end

/-- Without hooks, NULL is answered as the buffer is exactly when one end of the packet, and one
end only, is a user's; for a proxy, when its client is a user. -/
theorem users_auth_null_iff {π : Type} (hooks : Hooks π) (users : Users) (flagExtern : Bool)
    (req : Request) (p : π) :
    AnswersWithoutBuffer users req (usersAuth hooks.withoutAuth users flagExtern req p).flag ↔
      OneUser users req := by
  have hbare := @usersAuth_bare π users hooks flagExtern req p
  cases req with
  | traffic info ret =>
    simp only [Request.buffered, usersAuthBare, Option.isNone_some, Bool.false_eq_true, false_and,
      if_false, Option.some.injEq, Prod.mk.injEq] at hbare
    rw [← hbare.1]
    exact answersWithoutBuffer_traffic info ret
  | squid info ret =>
    simp only [Request.buffered, usersAuthBare, Option.isNone_some, Bool.false_eq_true, false_and,
      if_false, Option.some.injEq, Prod.mk.injEq] at hbare
    rw [← hbare.1]
    exact answersWithoutBuffer_squid info ret
  | other service =>
    have hflag : (usersAuth hooks.withoutAuth users flagExtern (.other service) p).flag =
        false := by
      simp [usersAuth, Hooks.withoutAuth]
    rw [hflag]
    exact iff_of_true ⟨false, rfl, Iff.rfl⟩ trivial

/-- Two neighbours at 10.0.0.1 and 10.0.0.2. -/
def neighbours : Users where
  idUsers := [⟨1, 1, 0x0100000a, [], 0, [], 0, 1, 0⟩, ⟨2, 1, 0x0200000a, [], 0, [], 0, 1, 0⟩]
  cleanList := []
  curUsers := 2

def unset : PacketDataInfo := ⟨.traffic, 0, 0, 0, 0, 0, 0, 0⟩

/-- A packet from one neighbour to the other is let in with NULL and refused with a buffer; one
between strangers is written through NULL. -/
theorem users_auth_null_neighbours :
    usersAuthBare neighbours (.traffic ⟨[], 6, 0x0100000a, 0x0200000a, 1024, 80⟩ none) =
        some (true, .traffic ⟨[], 6, 0x0100000a, 0x0200000a, 1024, 80⟩ none) ∧
      (authTraffic neighbours ⟨[], 6, 0x0100000a, 0x0200000a, 1024, 80⟩ unset).1 = false ∧
      usersAuthBare neighbours (.traffic ⟨[], 6, 0x0300000a, 0x0400000a, 1024, 80⟩ none) = none ∧
      ¬ AnswersWithoutBuffer neighbours (.traffic ⟨[], 6, 0x0100000a, 0x0200000a, 1024, 80⟩ unset)
        (usersAuth (Hooks.withoutAuth ⟨[], [], []⟩) neighbours true
          (.traffic ⟨[], 6, 0x0100000a, 0x0200000a, 1024, 80⟩ unset) ()).flag := by
  refine ⟨by decide, by decide, by decide, ?_⟩
  intro h
  obtain ⟨flag, hnull, hagree⟩ := h
  have htrue : usersAuthBare neighbours (.traffic ⟨[], 6, 0x0100000a, 0x0200000a, 1024, 80⟩ none) =
      some (true, .traffic ⟨[], 6, 0x0100000a, 0x0200000a, 1024, 80⟩ none) := by decide
  rw [Request.unbuffered, htrue] at hnull
  cases hnull
  have hfull := hagree.mp rfl
  revert hfull
  decide

end IPStat
