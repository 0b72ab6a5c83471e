import IPStat.Core.Agreement
import IPStat.System.Modules

namespace IPStat

section
variable {F : Type}

def registerAuth (r : Registries F) (func : F) : Registries F :=
  { r with externAuth := r.externAuth ++ [func] }

def unregisterAuth [DecidableEq F] (r : Registries F) (func : F) : Registries F :=
  { r with externAuth := r.externAuth.erase func }

inductive HookOp (F : Type) where
  | registerAuth (func : F)
  | registerAutz (func : F)
  | registerAcct (func : F)
  | unregisterAuth (func : F)
  | unregisterAutz (func : F)
  | unregisterAcct (func : F)
  deriving DecidableEq, Repr

def hookStep [DecidableEq F] (r : Registries F) : HookOp F → Registries F
  | .registerAuth func => registerAuth r func
  | .registerAutz func => registerAutz r func
  | .registerAcct func => registerAcct r func
  | .unregisterAuth func => unregisterAuth r func
  | .unregisterAutz func => unregisterAutz r func
  | .unregisterAcct func => unregisterAcct r func

/-- The registries after a sequence of calls, from those of a daemon without modules. -/
def hooksAfter [DecidableEq F] (ops : List (HookOp F)) : Registries F :=
  ops.foldl hookStep ⟨[], [], [], [], []⟩

/-- The functions behind the registered addresses. -/
def Registries.hooks {π : Type} (code : F → Hook π) (r : Registries F) : Hooks π :=
  ⟨r.externAuth.map code, r.externAutz.map code, r.externAcct.map code⟩

section
variable {π : Type} (code : F → Hook π)

/-- A hook that notes its calls, with the request it is handed. -/
def noted (func : F) : Hook (π × List (F × Request)) := fun req s =>
  let (flag, req', p) := code func req s.1
  (flag, req', p, s.2 ++ [(func, req)])

/-- The hook calls that users_acct makes, and what it returns. -/
def acctCalls (r : Registries F) (users : Users) (flagExtern : Bool) (req : Request) (p : π) :
    Option (List (F × Request) × Bool) :=
  (usersAcct (r.hooks (noted code)) users flagExtern req (p, [])).map fun c =>
    (c.plugins.2, c.flag)

/-- The hooks called one after the other, up to and including the first that answers FALSE. -/
def calledUpToFalse : List F → Request → π → List (F × Request) × Bool
  | [], _, _ => ([], true)
  | func :: funcs, req, p =>
    match code func req p with
    | (false, _, _) => ([(func, req)], false)
    | (true, req', p') =>
      let (calls, flag) := calledUpToFalse funcs req' p'
      ((func, req) :: calls, flag)

end

section
variable {π : Type} {code : F → Hook π} {r : Registries F} {users : Users} {req : Request} {p : π}
  {found : Users × List Nat}

theorem noted_eq {func : F} {flag : Bool} {req' : Request} {p' : π}
    (h : code func req p = (flag, req', p')) (calls : List (F × Request)) :
    noted code func req (p, calls) = (flag, req', p', calls ++ [(func, req)]) := by
  rw [noted, h]

variable (code) in
theorem callHooks_noted (funcs : List F) (req : Request) (p : π) (calls : List (F × Request)) :
    let c := callHooks false (funcs.map (noted code)) true req (p, calls)
    (c.2.2.2, c.1) = (calls ++ (calledUpToFalse code funcs req p).1,
      (calledUpToFalse code funcs req p).2) := by
  induction funcs generalizing req p calls with
  | nil => simp [callHooks, calledUpToFalse]
  | cons func funcs ih =>
    rcases hcall : code func req p with ⟨flag, req', p'⟩
    rw [List.map_cons, callHooks, calledUpToFalse, noted_eq hcall, hcall]
    cases flag with
    | false => rfl
    | true =>
      have hrest := ih req' p' (calls ++ [(func, req)])
      rw [List.append_assoc, List.singleton_append] at hrest
      exact hrest

theorem calledUpToFalse_nil_iff {funcs : List F} :
    (calledUpToFalse code funcs req p).1 = [] ↔ funcs = [] := by
  cases funcs with
  | nil => simp [calledUpToFalse]
  | cons func funcs =>
    rw [calledUpToFalse]
    rcases code func req p with ⟨flag, req', p'⟩
    cases flag <;> simp

/-- It is the autz list that decides whether the acct hooks are called. -/
theorem acctCalls_eq (hfound : acctRules users req = some (some found)) :
    acctCalls code r users true req p =
      if r.externAutz = [] then some ([], true)
      else some (calledUpToFalse code r.externAcct req p) := by
  simp only [acctCalls, usersAcct, hfound, Option.bind_eq_bind, Option.bind_some]
  by_cases hautz : r.externAutz = []
  · simp [Registries.hooks, hautz]
  · have hcalls := callHooks_noted code r.externAcct req p []
    simp only [Registries.hooks, ne_eq, List.map_eq_nil_iff, hautz, not_false_eq_true, and_self,
      if_true, if_false]
    rw [List.nil_append] at hcalls
    exact congrArg some hcalls

end

/-- The acct hooks are called in order up to the first that refuses, and a state that differs in
the other two lists makes the same calls and returns the same. -/
def AcctHooksOnly [DecidableEq F] {π : Type} (code : F → Hook π) (users : Users) (req : Request)
    (p : π) (ops : List (HookOp F)) (r : Registries F) : Prop :=
  acctCalls code (hooksAfter ops) users true req p =
      some (calledUpToFalse code (hooksAfter ops).externAcct req p) ∧
    acctCalls code r users true req p = acctCalls code (hooksAfter ops) users true req p

/-- The acct hooks depend on nothing but their registry exactly when they are none, or when no
autz list is empty. -/
theorem acct_hooks_only_iff [DecidableEq F] {π : Type} (code : F → Hook π) (users : Users)
    (req : Request) (p : π) (found : Users × List Nat) (ops : List (HookOp F)) (r : Registries F)
    (hfound : acctRules users req = some (some found))
    (hsame : r.externAcct = (hooksAfter ops).externAcct) :
    AcctHooksOnly code users req p ops r ↔
      (hooksAfter ops).externAcct = [] ∨
        (hooksAfter ops).externAutz ≠ [] ∧ r.externAutz ≠ [] := by
  rw [AcctHooksOnly, acctCalls_eq hfound, acctCalls_eq hfound, hsame]
  set calls := calledUpToFalse code (hooksAfter ops).externAcct req p with hcalls
  by_cases hacct : (hooksAfter ops).externAcct = []
  · have hnone : calls = ([], true) := by
      rw [hcalls, hacct]
      rfl
    simp [hnone, hacct]
  · have hsome : ([], true) ≠ calls := by
      intro heq
      exact hacct (calledUpToFalse_nil_iff.mp (congrArg Prod.fst heq).symm)
    simp only [hacct, false_or]
    by_cases hautz : (hooksAfter ops).externAutz = []
    · simp [hautz, hsome]
    · by_cases hother : r.externAutz = []
      · simp [hautz, hother, hsome]
      · simp [hautz, hother]

end

/-- Hooks at numbered addresses; those from 10 on refuse. -/
def numbered (func : Nat) : Hook Unit := fun req p => (decide (func < 10), req, p)

def hookRequest : Request := .squid ⟨[], 16777226⟩ ⟨.squid, 7, 1, 10, 1, 0, 1500⟩

/-- With an autz hook in both states, acct hooks 2 and 12 are called and 3, behind the refusal, is
not. -/
theorem acct_hooks_only_guarded :
    AcctHooksOnly numbered (squidUsers [squidRule 1 10 1]) hookRequest ()
        [.registerAutz 1, .registerAcct 2, .registerAcct 12, .registerAcct 3]
        ⟨[], [], [5], [4], [2, 12, 3]⟩ ↔
      [2, 12, 3] = [] ∨ [1] ≠ [] ∧ [4] ≠ [] :=
  acct_hooks_only_iff numbered _ hookRequest () _ _ ⟨[], [], [5], [4], [2, 12, 3]⟩ rfl rfl

/-- A single acct hook is not called, unless an autz hook is registered too. -/
theorem acct_hook_alone_ignored :
    acctCalls numbered (hooksAfter [.registerAcct 2]) (squidUsers [squidRule 1 10 1]) true
        hookRequest () = some ([], true) ∧
      acctCalls numbered (hooksAfter [.registerAutz 1, .registerAcct 2])
        (squidUsers [squidRule 1 10 1]) true hookRequest () = some ([(2, hookRequest)], true) ∧
      ¬ AcctHooksOnly numbered (squidUsers [squidRule 1 10 1]) hookRequest ()
        [.registerAcct 2] (hooksAfter [.registerAutz 1, .registerAcct 2]) := by
  refine ⟨by decide, by decide, ?_⟩
  intro honly
  have hcalled := honly.1
  revert hcalled
  decide

end IPStat
