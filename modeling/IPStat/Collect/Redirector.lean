import IPStat.Collect.Input
import IPStat.Core.Convergence
import IPStat.Policy.Url

/-! Squid's redirector: redirector/main.c, which Squid writes its requests to, and
thr_squid_clientredirector, which answers each of them on a connection of its own. -/

namespace IPStat

/-- fgets for a block of `n + 1` bytes: what it reads, and what is left of the stream. -/
def readLine : Nat → List UInt8 → List UInt8 × List UInt8
  | 0, stream => ([], stream)
  | _ + 1, [] => ([], [])
  | n + 1, b :: stream =>
    if b = 10 then ([b], stream) else (b :: (readLine n stream).1, (readLine n stream).2)

/-- NODE_POLICY_USER -/
structure NodePolicyUser where
  idUser : IpId
  idPolicy : IpId
  dflt : UInt8
  deriving DecidableEq, Repr

def checkUser (l : List NodePolicyUser) (idUser : IpId) : Option (IpId × UInt8) :=
  (l.find? fun node => node.idUser = idUser).map fun node => (node.idPolicy, node.dflt)

/-- What the daemon holds while it serves a request: the core, the lists of the URL policy, and
what `squid_info.mac` and `squid_data` happen to be. -/
structure SquidDaemon (π ρ : Type) where
  hooks : Hooks π
  users : Users
  plugins : π
  policyUsers : List NodePolicyUser
  patterns : List (PolicyNode (PatternReg ρ))
  mac : Mac
  data : SquidDataInfo

section
variable {π ρ : Type}

def autzUrlPolicy (api : RegexApi ρ) (daemon : SquidDaemon π ρ) (idUser : IpId)
    (url : List UInt8) : Bool :=
  match checkUser daemon.policyUsers idUser with
  | some (idPolicy, dflt) => checkPatterns api daemon.patterns idPolicy url dflt
  | none => true

/-- core->auth, core->autz and autz_url_policy in turn. -/
def squidAllows (api : RegexApi ρ) (daemon : SquidDaemon π ρ) (ip : IpAddr) (url : List UInt8) :
    Bool :=
  let auth := usersAuth daemon.hooks daemon.users true (.squid ⟨daemon.mac, ip⟩ daemon.data)
    daemon.plugins
  if auth.flag then
    match usersAutz daemon.hooks daemon.users true auth.req auth.plugins with
    | some autz => autz.flag && autzUrlPolicy api daemon autz.req.idUser url
    | none => false
  else false

/-- total_auth_query, success_auth_query and failed_auth_query. -/
structure AuthQueries where
  total : IpSize
  success : IpSize
  failed : IpSize
  deriving DecidableEq, Repr

/-- How far a request gets: the connection is refused, or the pool does not take it and nobody
closes it, or a thread serves it. -/
inductive Reach where
  | refused
  | abandoned
  | served
  deriving DecidableEq, Repr

/-- What one request meets; `recv` is for recv and shutdown. -/
structure RequestEnv (π ρ : Type) where
  reach : Reach
  recv : Bool
  send : Bool
  daemon : SquidDaemon π ρ

/-- What is the same for all requests. -/
structure SquidSetting (ρ : Type) where
  api : RegexApi ρ
  inetAton : List UInt8 → Option IpAddr
  denyUrl : List UInt8

/-- thr_squid_clientredirector: what it sends before it closes the connection. `none` is an access
out of bounds. -/
def thrSquidClientredirector (setting : SquidSetting ρ) (env : RequestEnv π ρ)
    (received : List UInt8) (queries : AuthQueries) : Option (List UInt8 × AuthQueries) :=
  if env.recv then
    match redirectorLine received with
    | none => none
    | some args =>
      match args.argv with
      | url :: host :: _ =>
        let ip := hostbyip setting.inetAton (host.takeWhile (· ≠ 47))
        if squidAllows setting.api env.daemon ip url then
          if env.send then
            some (sentText received,
              { queries with total := queries.total + 1, success := queries.success + 1 })
          else some ([], queries)
        else
          let queries :=
            { queries with total := queries.total + 1, failed := queries.failed + 1 }
          some (if env.send then setting.denyUrl ++ [10] else [], queries)
      | _ => some ([], queries)
  else some ([], queries)

/-- How a redirector ends: at the end of its requests, without a daemon, waiting for an answer, or
with the daemon's fault. -/
inductive RedirectorEnd where
  | eof
  | refused
  | waiting
  | fault
  deriving DecidableEq, Repr

/-- What a redirector prints, how it ends, and the daemon's counters. -/
structure Redirected where
  stdout : List UInt8
  ends : RedirectorEnd
  queries : AuthQueries
  deriving DecidableEq, Repr

/-- The loop of main, with at most `fuel` requests; `k` counts them. A reply is read into the
buffer that still holds the request. -/
def redirectorLoop (setting : SquidSetting ρ) (envs : Nat → RequestEnv π ρ) :
    Nat → Nat → List UInt8 → AuthQueries → Redirected
  | 0, _, _, queries => ⟨[], .eof, queries⟩
  | fuel + 1, k, stdin, queries =>
    let buffer := (readLine 2047 stdin).1
    if buffer = [] then ⟨[], .eof, queries⟩
    else
      match (envs k).reach with
      | .refused => ⟨[], .refused, queries⟩
      | .abandoned => ⟨[], .waiting, queries⟩
      | .served =>
        if sentText buffer = [] then ⟨[], .waiting, queries⟩
        else
          match thrSquidClientredirector setting (envs k) (sentText buffer) queries with
          | none => ⟨[], .fault, queries⟩
          | some (reply, queries) =>
            let answer := (readLine 2046 reply).1
            let printed := if answer = [] then sentText buffer else sentText answer
            let rest := redirectorLoop setting envs fuel (k + 1) (readLine 2047 stdin).2 queries
            { rest with stdout := printed ++ rest.stdout }

/-- main of redirector/main.c. -/
def redirectorMain (setting : SquidSetting ρ) (envs : Nat → RequestEnv π ρ) (stdin : List UInt8)
    (queries : AuthQueries) : Redirected :=
  redirectorLoop setting envs (stdin.length + 1) 0 stdin queries

/-- A request as Squid writes it, without its newline, which fits in the buffers with it. -/
structure RequestLine where
  text : List UInt8
  clean : ∀ b ∈ text, b ≠ 0 ∧ b ≠ 10
  short : text.length ≤ 2045

/-- `deny_url`, a line of the configuration. -/
structure DenyUrl where
  text : List UInt8
  clean : ∀ b ∈ text, b ≠ 0 ∧ b ≠ 10
  short : text.length ≤ 200

/-- The URL and the host of a request that has both. -/
def RequestLine.asked (line : RequestLine) : Option (List UInt8 × List UInt8) :=
  match Tokens.tokens (isDelim [32]) (line.text ++ [10]) with
  | url :: host :: _ => some (url, host.takeWhile (· ≠ 47))
  | _ => none

/-- The daemon's verdict on a request, if it comes to one. -/
def verdict (setting : SquidSetting ρ) (env : RequestEnv π ρ) (line : RequestLine) : Option Bool :=
  if env.recv then
    line.asked.map fun asked =>
      squidAllows setting.api env.daemon (hostbyip setting.inetAton asked.2) asked.1
  else none

/-- The answer: the deny page where the daemon says so, or else the request as it came. -/
def answerLine (setting : SquidSetting ρ) (env : RequestEnv π ρ) (line : RequestLine) :
    List UInt8 :=
  if verdict setting env line = some false ∧ env.send then setting.denyUrl else line.text

def AuthQueries.count (queries : AuthQueries) (send : Bool) : Option Bool → AuthQueries
  | some true =>
    if send then { queries with total := queries.total + 1, success := queries.success + 1 }
    else queries
  | some false => { queries with total := queries.total + 1, failed := queries.failed + 1 }
  | none => queries

/-- What the redirector is for: one line for each request, in order, for as long as the daemon
takes them. -/
def answers (setting : SquidSetting ρ) (envs : Nat → RequestEnv π ρ) :
    Nat → List RequestLine → AuthQueries → Redirected
  | _, [], queries => ⟨[], .eof, queries⟩
  | k, line :: lines, queries =>
    match (envs k).reach with
    | .refused => ⟨[], .refused, queries⟩
    | .abandoned => ⟨[], .waiting, queries⟩
    | .served =>
      let rest := answers setting envs (k + 1) lines
        (queries.count (envs k).send (verdict setting (envs k) line))
      { rest with stdout := answerLine setting (envs k) line ++ 10 :: rest.stdout }

end

section
variable {text stream : List UInt8} {n : Nat}

theorem readLine_line (hclean : ∀ b ∈ text, b ≠ 10) (hshort : text.length < n)
    (stream : List UInt8) : readLine n (text ++ 10 :: stream) = (text ++ [10], stream) := by
  induction text generalizing n with
  | nil =>
    obtain ⟨n, rfl⟩ : ∃ m, n = m + 1 := ⟨n - 1, by simp at hshort; omega⟩
    rfl
  | cons b text ih =>
    obtain ⟨n, rfl⟩ : ∃ m, n = m + 1 := ⟨n - 1, by simp at hshort; omega⟩
    rw [List.length_cons, Nat.add_lt_add_iff_right] at hshort
    have hrest := ih (fun c hc => hclean c (List.mem_cons_of_mem b hc)) hshort
    rw [List.cons_append, readLine, if_neg (hclean b List.mem_cons_self), hrest]
    rfl

theorem sentText_line (hclean : ∀ b ∈ text, b ≠ 0) : sentText (text ++ [10]) = text ++ [10] := by
  rw [sentText, List.takeWhile_eq_self_iff]
  intro b hb
  rcases List.mem_append.mp hb with hb | hb
  · simpa using hclean b hb
  · rw [List.mem_singleton.mp hb]
    rfl

end

section
variable {π ρ : Type} {setting : SquidSetting ρ} {env : RequestEnv π ρ} {line : RequestLine}

theorem RequestLine.noNul (line : RequestLine) : sentText (line.text ++ [10]) = line.text ++ [10] :=
  sentText_line fun b hb => (line.clean b hb).1

/-- A request is never a blank, so parse_arg finds its tokens. -/
theorem redirectorLine_request (line : RequestLine) : ∃ args,
    redirectorLine (line.text ++ [10]) = some args ∧
      args.argv = (Tokens.tokens (isDelim [32]) (line.text ++ [10])).take 6 := by
  have hsent := line.noNul
  have hlength : (line.text ++ [10]).length < 2048 := by
    have hshort := line.short
    rw [List.length_append, List.length_singleton]
    omega
  have htext := text_sent (le_of_lt hlength) []
  rw [hsent, if_pos hlength, List.append_nil] at htext
  have hclean : 0 ∉ line.text ++ [10] := hsent ▸ sentText_noNul _
  have hne : line.text ++ [10] ≠ [] := by simp
  have htokens : Tokens.tokens (isDelim [32]) (line.text ++ [10]) ≠ [] :=
    tokens_ne_nil_iff.mpr ⟨10, by simp, by decide⟩
  rw [redirectorLine, htext]
  simp only [Option.bind_eq_bind, Option.bind_some]
  rw [serverParseArg_tokens hclean, if_neg hne, if_neg htokens, ipParseArg_tokens hclean,
    Option.bind_some, storeArgs, if_pos (List.length_take_le _ _)]
  exact ⟨_, rfl, rfl⟩

/-- A thread sends what the verdict says, and counts it. -/
theorem thrSquidClientredirector_request (queries : AuthQueries) :
    ∃ reply, thrSquidClientredirector setting env (line.text ++ [10]) queries =
        some (reply, queries.count env.send (verdict setting env line)) ∧
      (reply = [] ∧ answerLine setting env line = line.text ∨
        reply = answerLine setting env line ++ [10]) := by
  obtain ⟨args, hargs, hargv⟩ := redirectorLine_request line
  rw [thrSquidClientredirector, answerLine]
  cases hrecv : env.recv with
  | false =>
    have hverdict : verdict setting env line = none := by simp [verdict, hrecv]
    exact ⟨[], by simp [hverdict, AuthQueries.count], by simp [hverdict]⟩
  | true =>
    simp only [if_true, hargs, hargv]
    cases htokens : Tokens.tokens (isDelim [32]) (line.text ++ [10]) with
    | nil =>
      have hverdict : verdict setting env line = none := by
        simp [verdict, hrecv, RequestLine.asked, htokens]
      exact ⟨[], by simp [hverdict, AuthQueries.count], by simp [hverdict]⟩
    | cons url tokens =>
      cases tokens with
      | nil =>
        have hverdict : verdict setting env line = none := by
          simp [verdict, hrecv, RequestLine.asked, htokens]
        exact ⟨[], by simp [hverdict, AuthQueries.count], by simp [hverdict]⟩
      | cons host rest =>
        have hverdict : verdict setting env line = some (squidAllows setting.api env.daemon
            (hostbyip setting.inetAton (host.takeWhile (· ≠ 47))) url) := by
          rw [verdict, if_pos hrecv, RequestLine.asked, htokens]
          rfl
        rw [hverdict]
        simp only [List.take_succ_cons]
        generalize squidAllows setting.api env.daemon
          (hostbyip setting.inetAton (host.takeWhile (· ≠ 47))) url = allows
        cases allows with
        | true => cases env.send <;> simp [AuthQueries.count, line.noNul]
        | false => cases env.send <;> simp [AuthQueries.count]

/-- What is left in a redirector's buffer when the reply is read into it is the answer. -/
theorem printed_request (deny : DenyUrl) (hdeny : setting.denyUrl = deny.text) {reply : List UInt8}
    (h : reply = [] ∧ answerLine setting env line = line.text ∨
      reply = answerLine setting env line ++ [10]) :
    (if (readLine 2046 reply).1 = [] then sentText (line.text ++ [10])
      else sentText (readLine 2046 reply).1) = answerLine setting env line ++ [10] := by
  have hanswer : (∀ b ∈ answerLine setting env line, b ≠ 0 ∧ b ≠ 10) ∧
      (answerLine setting env line).length < 2046 := by
    rw [answerLine]
    split
    · rw [hdeny]
      exact ⟨deny.clean, by have := deny.short; omega⟩
    · exact ⟨line.clean, by have := line.short; omega⟩
  rcases h with ⟨rfl, hline⟩ | rfl
  · rw [hline]
    exact line.noNul
  · rw [readLine_line (fun b hb => (hanswer.1 b hb).2) hanswer.2, if_neg (by simp)]
    exact sentText_line fun b hb => (hanswer.1 b hb).1

end

/-- What Squid writes. -/
def stdinOf (lines : List RequestLine) : List UInt8 := lines.flatMap fun line => line.text ++ [10]

theorem redirectorLoop_answers {π ρ : Type} {setting : SquidSetting ρ} (deny : DenyUrl)
    (hdeny : setting.denyUrl = deny.text) (envs : Nat → RequestEnv π ρ) {fuel : Nat}
    (lines : List RequestLine) (k : Nat) (queries : AuthQueries) (hfuel : lines.length < fuel) :
    redirectorLoop setting envs fuel k (stdinOf lines) queries =
      answers setting envs k lines queries := by
  induction lines generalizing fuel k queries with
  | nil =>
    obtain ⟨fuel, rfl⟩ : ∃ j, fuel = j + 1 := ⟨fuel - 1, by simp at hfuel; omega⟩
    rfl
  | cons line lines ih =>
    obtain ⟨fuel, rfl⟩ : ∃ j, fuel = j + 1 := ⟨fuel - 1, by simp at hfuel; omega⟩
    rw [List.length_cons, Nat.add_lt_add_iff_right] at hfuel
    have hread : readLine 2047 (stdinOf (line :: lines)) = (line.text ++ [10], stdinOf lines) := by
      have hshort := line.short
      have hstdin : stdinOf (line :: lines) = line.text ++ 10 :: stdinOf lines := by
        simp [stdinOf]
      rw [hstdin]
      exact readLine_line (fun b hb => (line.clean b hb).2) (by omega) _
    have hne : line.text ++ [10] ≠ [] := by simp
    obtain ⟨reply, hthread, hreply⟩ := @thrSquidClientredirector_request π ρ setting (envs k) line
      queries
    rw [redirectorLoop, answers, hread]
    simp only [hne, line.noNul, if_false]
    cases hreach : (envs k).reach with
    | refused => rfl
    | abandoned => rfl
    | served =>
      simp only [hthread, ih _ _ hfuel]
      have hprinted := printed_request deny hdeny hreply
      rw [line.noNul] at hprinted
      rw [hprinted]
      simp

/-- Whatever Squid asks and whatever becomes of each request, a redirector prints one line for each
that the daemon has taken, in order and unbroken: the deny page exactly where the daemon came to a
refusal and could send it, or else the request as it came. -/
theorem redirector_answers {π ρ : Type} (api : RegexApi ρ) (inetAton : List UInt8 → Option IpAddr)
    (deny : DenyUrl) (envs : Nat → RequestEnv π ρ) (lines : List RequestLine)
    (queries : AuthQueries) :
    redirectorMain ⟨api, inetAton, deny.text⟩ envs (stdinOf lines) queries =
      answers ⟨api, inetAton, deny.text⟩ envs 0 lines queries := by
  apply redirectorLoop_answers deny rfl
  have hlength : lines.length ≤ (stdinOf lines).length := by
    rw [stdinOf, List.length_flatMap]
    induction lines with
    | nil => exact Nat.zero_le _
    | cons line lines ih =>
      simp
      omega
  omega

end IPStat
