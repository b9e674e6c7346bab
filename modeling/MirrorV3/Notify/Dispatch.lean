import Mathlib.Data.Stream.Defs
import MirrorV3.Bin.Resolution
import MirrorV3.Lib.Retry

/-! How a batch is dispatched to one endpoint: to its URL, or to every address of its host. -/

namespace MirrorV3

open Effect MonadExcept
open Config (NotifyOutcome NotifyOutcomes NotifyRetry Url)

/-- What a POST came to. -/
inductive Outcome where
  | timeout
  /-- Or any other failure to reach the receiver. -/
  | connRefused
  | twoXx
  | threeXx
  | fourXx
  | fiveXx
  deriving Repr, DecidableEq

/-- What the outcome of a request means for the mirror. -/
def Config.NotifyOutcomes.forOutcome (outcomes : NotifyOutcomes) : Outcome → NotifyOutcome
  | .timeout => outcomes.timeout
  | .connRefused => outcomes.connrefused
  | .twoXx => outcomes.twoXx
  | .threeXx => outcomes.threeXx
  | .fourXx => outcomes.fourXx
  | .fiveXx => outcomes.fiveXx

/-- What the text of the error says. -/
def NotifyError.display : NotifyError → String
  | .transport message => "notify transport: " ++ message
  | .exhausted attempts lastError =>
    s!"notify retries exhausted after {attempts} attempt(s): " ++ lastError

/-- An address of a host and a port; the address is written as it is in a URL. -/
structure SocketAddr where
  ip : String
  port : Nat
  deriving Repr, DecidableEq

/-- The text of an address and its port. -/
def SocketAddr.display (sa : SocketAddr) : String := s!"{sa.ip}:{sa.port}"

/-- A POST that was sent. -/
structure Request where
  url : Url
  /-- The port that was set on the URL, if one was. -/
  port : Option Nat
  path : String
  targetHost : String
  attempt : Nat
  deriving Repr, DecidableEq

/-- What a POST is answered with: a response with its status, or no response. -/
inductive Reply where
  | response (status : Nat) (shown : String)
  | failed (isTimeout isConnectionRefused : Bool) (shown : String)
  deriving Repr, DecidableEq

/-- Which outcome a reply falls into; the text of the error is replaced unless it is a delivery. -/
def classify (reply : Reply) (error : String) : Outcome × String :=
  match reply with
  | .response status shown =>
    if 200 ≤ status ∧ status < 300 then (.twoXx, error)
    else if 300 ≤ status ∧ status < 400 then (.threeXx, "HTTP " ++ shown)
    else if 400 ≤ status ∧ status < 500 then (.fourXx, "HTTP " ++ shown)
    else (.fiveXx, "HTTP " ++ shown)
  | .failed isTimeout isConnectionRefused shown =>
    if isTimeout then (.timeout, "timeout: " ++ shown)
    else if isConnectionRefused then (.connRefused, "connection refused: " ++ shown)
    else (.connRefused, "connection error: " ++ shown)

/-- The addresses an endpoint has cached, and all that it meets as it dispatches. -/
structure Dispatching where
  /-- The resolved addresses and when they were resolved, in milliseconds. -/
  cached : Option (List SocketAddr × Nat)
  /-- What the resolver will answer. -/
  answers : Stream' (Except String (List SocketAddr))
  /-- What the POSTs will be answered with. -/
  replies : Stream' Reply
  /-- The readings of the process's clock. -/
  instants : Stream' Nat
  /-- The POSTs that were sent, in order. -/
  sent : List Request
  /-- The pauses that were made, in milliseconds. -/
  slept : List Nat

/-- How long resolved addresses are used again, in milliseconds. -/
def dnsACacheTtl : Nat := 30000

/-- The policies a notifier dispatches under. -/
structure Inner where
  outcomes : NotifyOutcomes
  retry : NotifyRetry
  deriving Repr, DecidableEq

/-- The wait before the attempt after this one, in milliseconds. -/
def backoffForAttempt (baseMs attempt : Nat) : Nat :=
  let shift := min (attempt - 1) 20
  min (min (baseMs * 2 ^ shift) (2 ^ 64 - 1)) 30000

/-- What an outcome that is not retried any more comes to. -/
def applyFinalAction (policy : NotifyOutcome) (attempts : Nat) (lastError : String) :
    Except NotifyError Unit :=
  match policy.final with
  | .accept => .ok ()
  | .skip => .ok ()
  | .fail => .error (.exhausted attempts lastError)

/-- The addresses without repetitions, each where it came first. -/
def dedupe : List SocketAddr → List SocketAddr := List.eraseDups

/-- What the answers that were no deliveries mean, each with its error. -/
def Inner.failures (inner : Inner) (results : List (Outcome × String)) :
    List (NotifyOutcome × String) :=
  (results.filter (·.1 ≠ .twoXx)).map fun result =>
    (inner.outcomes.forOutcome result.1, result.2)

/-- The first error of final actions that were all applied. -/
def firstError : List (Except NotifyError Unit) → Except NotifyError Unit
  | [] => .ok ()
  | .ok () :: rest => firstError rest
  | .error e :: _ => .error e

namespace Dispatching

/-- Read the process's clock. -/
def instant : Program NotifyError Dispatching Nat := do
  let s ← get
  set { s with instants := s.instants.tail }
  pure s.instants.head

/-- Wait. -/
def sleep (ms : Nat) : Program NotifyError Dispatching Unit :=
  modify fun s => { s with slept := s.slept ++ [ms] }

/-- The addresses of the endpoint, from the cache while they are fresh. -/
def resolveOrCached (host : String) : Program NotifyError Dispatching (List SocketAddr) := do
  let resolve : Program NotifyError Dispatching (List SocketAddr) := do
    let s ← get
    set { s with answers := s.answers.tail }
    match s.answers.head with
    | .error e => throw (.transport (s!"dns-a resolution failed for {host}: " ++ e))
    | .ok addrs => do
      let unique := dedupe addrs
      let resolvedAt ← instant
      modify fun s => { s with cached := some (unique, resolvedAt) }
      pure unique
  match (← get).cached with
  | none => resolve
  | some (addrs, resolvedAt) => do
    let asked ← instant
    if asked - resolvedAt < dnsACacheTtl then pure addrs else resolve

/-- Forget the addresses. -/
def invalidateCache : Program NotifyError Dispatching Unit :=
  modify fun s => { s with cached := none }

/-- Make one attempt at one address. -/
def postOnce (request : Request) (lastError : String) :
    Program NotifyError Dispatching (Outcome × String) := do
  let s ← get
  set { s with replies := s.replies.tail, sent := s.sent ++ [request] }
  pure (classify s.replies.head lastError)

/-- The POST to one address of an endpoint. -/
def perAddr (endpoint : Endpoint) (sa : SocketAddr) (attempt : Nat) : Request where
  url := { endpoint.url with host := some sa.ip }
  port := some sa.port
  path := endpoint.path
  targetHost := sa.display
  attempt := attempt

/-- The POST to the URL of an endpoint. -/
def asIs (endpoint : Endpoint) (attempt : Nat) : Request where
  url := endpoint.url
  port := none
  path := endpoint.path
  targetHost := endpoint.targetHost
  attempt := attempt

/-- Dispatch to every address of a host, from an attempt on. -/
def dispatchDnsA (inner : Inner) (endpoint : Endpoint) (host : String) (attempt : Nat) :
    Program NotifyError Dispatching Unit := do
  match ← Effect.attempt (resolveOrCached host) with
  | .error e => do
    -- A failed resolution goes through the policy for a refused connection.
    let policy := inner.outcomes.forOutcome .connRefused
    if _more : policy.retry = true ∧ attempt < inner.retry.maxAttempts then do
      sleep (backoffForAttempt inner.retry.backoffMs attempt)
      dispatchDnsA inner endpoint host (attempt + 1)
    else ofExcept (applyFinalAction policy attempt e.display)
  | .ok addrs => do
    if addrs = [] then pure ()
    else do
      let results ← addrs.mapM fun sa => postOnce (perAddr endpoint sa attempt) ""
      let failures := inner.failures results
      if failures = [] then pure ()
      else do
        invalidateCache
        if _more : failures.any (·.1.retry) = true ∧ attempt < inner.retry.maxAttempts then do
          sleep (backoffForAttempt inner.retry.backoffMs attempt)
          dispatchDnsA inner endpoint host (attempt + 1)
        else
          ofExcept (firstError (failures.map fun failure =>
            applyFinalAction failure.1 attempt failure.2))
termination_by inner.retry.maxAttempts - attempt

/-- Dispatch to the URL of an endpoint, from an attempt on. -/
def dispatchToAddress (inner : Inner) (endpoint : Endpoint) (attempt : Nat) (lastError : String) :
    Program NotifyError Dispatching Unit := do
  let (outcome, lastError) ← postOnce (asIs endpoint attempt) lastError
  let policy := inner.outcomes.forOutcome outcome
  if outcome = .twoXx then pure ()
  else if _more : policy.retry = true ∧ attempt < inner.retry.maxAttempts then do
    sleep (backoffForAttempt inner.retry.backoffMs attempt)
    dispatchToAddress inner endpoint (attempt + 1) lastError
  else ofExcept (applyFinalAction policy attempt lastError)
termination_by inner.retry.maxAttempts - attempt

/-! ### The two loops as rounds -/

/-- What a round of a dispatch came to: no addresses, or what each of them answered. -/
inductive Round where
  | unresolved (error : NotifyError)
  | answered (results : List (Outcome × String))
  deriving Repr, DecidableEq

/-- What the failures of a round mean; a failed resolution counts as a refused connection. -/
def Round.failures (inner : Inner) : Round → List (NotifyOutcome × String)
  | .unresolved e => [(inner.outcomes.forOutcome .connRefused, e.display)]
  | .answered results => inner.failures results

/-- Whether a failure of the round is to be tried again. -/
def Round.retryable (inner : Inner) (round : Round) : Bool :=
  (round.failures inner).any (·.1.retry)

/-- Whether the round found no address, or every address answered with a delivery. -/
def Round.Delivers : Round → Prop
  | .unresolved _ => False
  | .answered results => ∀ result ∈ results, result.1 = .twoXx

/-- The rounds of a dispatch to every address of a host. -/
def dnsARounds (inner : Inner) (endpoint : Endpoint) (host : String) :
    Retry NotifyError Dispatching Round Unit where
  round attempt := do
    match ← Effect.attempt (resolveOrCached host) with
    | .error e => pure (.unresolved e)
    | .ok addrs => do
      let results ← addrs.mapM fun sa => postOnce (perAddr endpoint sa attempt) ""
      if inner.failures results = [] then pure () else invalidateCache
      pure (.answered results)
  again := Round.retryable inner
  pause attempt := sleep (backoffForAttempt inner.retry.backoffMs attempt)
  finish attempt round := ofExcept (firstError ((round.failures inner).map fun failure =>
    applyFinalAction failure.1 attempt failure.2))

/-- The attempts of a dispatch to the URL of an endpoint. -/
def addressRounds (inner : Inner) (endpoint : Endpoint) :
    Retry NotifyError Dispatching (Outcome × String) Unit where
  round attempt := postOnce (asIs endpoint attempt) ""
  again result := result.1 ≠ .twoXx ∧ (inner.outcomes.forOutcome result.1).retry = true
  pause attempt := sleep (backoffForAttempt inner.retry.backoffMs attempt)
  finish attempt result :=
    if result.1 = .twoXx then pure ()
    else ofExcept (applyFinalAction (inner.outcomes.forOutcome result.1) attempt result.2)

variable {inner : Inner} {endpoint : Endpoint} {host : String}

/-- Whatever the addresses answer, each of them does. -/
theorem posts_return (addrs : List SocketAddr) (request : SocketAddr → Request) (s : Dispatching) :
    ∃ results s', addrs.mapM (fun sa => postOnce (request sa) "") s = .ok results s' := by
  induction addrs generalizing s with
  | nil => exact ⟨[], s, rfl⟩
  | cons sa addrs ih =>
    obtain ⟨results, s', rest⟩ := ih (after (postOnce (request sa) "") s)
    refine ⟨classify s.replies.head "" :: results, s', ?_⟩
    have first : postOnce (request sa) "" s
        = .ok (classify s.replies.head "") (after (postOnce (request sa) "") s) := rfl
    rw [List.mapM_cons, bind_of_ok first, bind_of_ok rest]
    rfl

/-- A resolution ends one way or the other. -/
theorem resolution_returns (host : String) (s : Dispatching) :
    ∃ answer s', (Effect.attempt (resolveOrCached host) : Program NotifyError Dispatching _) s
      = .ok answer s' := by
  rw [Effect.attempt]
  cases resolveOrCached host s with
  | ok addrs s' => exact ⟨_, _, rfl⟩
  | error e s' => exact ⟨_, _, rfl⟩

/-- Rounds of a dispatch never fail by themselves. -/
theorem dnsARounds_total (inner : Inner) (endpoint : Endpoint) (host : String) :
    (dnsARounds inner endpoint host).Total where
  round attempt s := by
    obtain ⟨answer, s₁, resolved⟩ := resolution_returns host s
    simp only [dnsARounds, bind_of_ok resolved]
    cases answer with
    | error e => exact ⟨_, _, rfl⟩
    | ok addrs =>
      obtain ⟨results, s₂, posted⟩ :=
        posts_return addrs (fun sa => perAddr endpoint sa attempt) s₁
      simp only [bind_of_ok posted]
      split
      · exact ⟨_, _, rfl⟩
      · exact ⟨_, _, rfl⟩
  pause attempt s := ⟨_, rfl⟩

/-- Of one action the first error is its own. -/
theorem firstError_singleton (action : Except NotifyError Unit) : firstError [action] = action := by
  cases action <;> rfl

/-- The body of the loop makes a round, and goes on or ends as the round says. -/
theorem dispatchDnsA_step {attempt : Nat} {round : Round} {s s' : Dispatching}
    (made : (dnsARounds inner endpoint host).round attempt s = .ok round s') :
    dispatchDnsA inner endpoint host attempt s
      = if round.retryable inner = true ∧ attempt < inner.retry.maxAttempts then
          dispatchDnsA inner endpoint host (attempt + 1)
            (after (sleep (backoffForAttempt inner.retry.backoffMs attempt)) s')
        else (dnsARounds inner endpoint host).finish attempt round s' := by
  obtain ⟨answer, s₁, resolved⟩ := resolution_returns host s
  simp only [dnsARounds, bind_of_ok resolved] at made
  rw [dispatchDnsA, bind_of_ok resolved]
  cases answer with
  | error e =>
    cases made
    have asked : (Round.unresolved e).retryable inner
        = (inner.outcomes.forOutcome .connRefused).retry := by
      simp [Round.retryable, Round.failures]
    rw [asked]
    by_cases more : (inner.outcomes.forOutcome .connRefused).retry = true
        ∧ attempt < inner.retry.maxAttempts
    · simp only [dif_pos more, if_pos more]
      rfl
    · simp only [dif_neg more, if_neg more, dnsARounds, Round.failures, List.map_cons, List.map_nil,
        firstError_singleton]
  | ok addrs =>
    obtain ⟨results, s₂, posted⟩ :=
      posts_return addrs (fun sa => perAddr endpoint sa attempt) s₁
    simp only [bind_of_ok posted] at made
    by_cases nobody : addrs = []
    · -- Without addresses there is nothing to deliver.
      subst nobody
      cases posted
      cases made
      rfl
    simp only [if_neg nobody, bind_of_ok posted]
    by_cases delivered : inner.failures results = []
    · simp only [delivered, if_true] at made
      cases made
      simp only [delivered, if_true, dnsARounds, Round.retryable, Round.failures]
      rfl
    · simp only [if_neg delivered] at made
      cases made
      simp only [if_neg delivered, dnsARounds, Round.retryable, Round.failures]
      by_cases more : (inner.failures results).any (·.1.retry) = true
          ∧ attempt < inner.retry.maxAttempts
      · simp only [dif_pos more, if_pos more]
        rfl
      · simp only [dif_neg more, if_neg more]
        rfl

/-- A dispatch to every address of a host goes by rounds. -/
theorem dispatchDnsA_eq (attempt : Nat) (s : Dispatching) :
    dispatchDnsA inner endpoint host attempt s
      = (dnsARounds inner endpoint host).run inner.retry.maxAttempts attempt s := by
  induction left : inner.retry.maxAttempts - attempt generalizing attempt s with
  | zero =>
    obtain ⟨round, s', made⟩ := (dnsARounds_total inner endpoint host).round attempt s
    rw [dispatchDnsA_step made, if_neg (by omega), Retry.run_last made (by omega)]
  | succ left ih =>
    obtain ⟨round, s', made⟩ := (dnsARounds_total inner endpoint host).round attempt s
    rw [dispatchDnsA_step made]
    by_cases more : round.retryable inner = true ∧ attempt < inner.retry.maxAttempts
    · rw [if_pos more, ih (attempt + 1) _ (by omega)]
      exact (Retry.run_again made more rfl).symm
    · rw [if_neg more]
      exact (Retry.run_last made more).symm

/-- A text of an error matters only where it is kept, which is for a delivery. -/
theorem classify_error (reply : Reply) (error : String) :
    classify reply error
      = if (classify reply "").1 = .twoXx then (.twoXx, error) else classify reply "" := by
  cases reply with
  | response status shown =>
    simp only [classify]
    split
    · rfl
    · split
      · rfl
      · split <;> rfl
  | failed isTimeout isConnectionRefused shown =>
    cases isTimeout <;> cases isConnectionRefused <;> rfl

/-- The body of the loop makes an attempt, and goes on or ends as the attempt says. -/
theorem dispatchToAddress_step {attempt : Nat} {lastError : String} {result : Outcome × String}
    {s s' : Dispatching} (made : (addressRounds inner endpoint).round attempt s = .ok result s') :
    dispatchToAddress inner endpoint attempt lastError s
      = if (addressRounds inner endpoint).again result = true
          ∧ attempt < inner.retry.maxAttempts then
          dispatchToAddress inner endpoint (attempt + 1) result.2
            (after (sleep (backoffForAttempt inner.retry.backoffMs attempt)) s')
        else (addressRounds inner endpoint).finish attempt result s' := by
  cases made
  have posted : postOnce (asIs endpoint attempt) lastError s
      = .ok (classify s.replies.head lastError) (after (postOnce (asIs endpoint attempt) "") s) := rfl
  rw [dispatchToAddress, bind_of_ok posted, classify_error]
  by_cases delivered : (classify s.replies.head "").1 = .twoXx
  · simp [delivered, addressRounds]
    rfl
  · have asked : (addressRounds inner endpoint).again (classify s.replies.head "")
        = (inner.outcomes.forOutcome (classify s.replies.head "").1).retry := by
      simp [addressRounds, delivered]
    rw [asked, if_neg delivered]
    by_cases more : (inner.outcomes.forOutcome (classify s.replies.head "").1).retry = true
        ∧ attempt < inner.retry.maxAttempts
    · simp only [if_neg delivered, dif_pos more, if_pos more]
      rfl
    · simp only [if_neg delivered, dif_neg more, if_neg more, addressRounds]
      rfl

/-- A dispatch to the URL of an endpoint goes by attempts, whatever error the one before left. -/
theorem dispatchToAddress_eq (attempt : Nat) (lastError : String) (s : Dispatching) :
    dispatchToAddress inner endpoint attempt lastError s
      = (addressRounds inner endpoint).run inner.retry.maxAttempts attempt s := by
  have made : (addressRounds inner endpoint).round attempt s
      = .ok (classify s.replies.head "") (after (postOnce (asIs endpoint attempt) "") s) := rfl
  induction left : inner.retry.maxAttempts - attempt generalizing attempt lastError s with
  | zero =>
    rw [dispatchToAddress_step made, if_neg (by omega), Retry.run_last made (by omega)]
  | succ left ih =>
    rw [dispatchToAddress_step made]
    by_cases more : (addressRounds inner endpoint).again (classify s.replies.head "") = true
        ∧ attempt < inner.retry.maxAttempts
    · rw [if_pos more, ih (attempt + 1) _ _ rfl (by omega)]
      exact (Retry.run_again made more rfl).symm
    · rw [if_neg more]
      exact (Retry.run_last made more).symm

/-- A resolver that always answers with one address, and a cache it has filled. -/
structure AlwaysResolves (sa : SocketAddr) (s : Dispatching) : Prop where
  cached : ∀ entry ∈ s.cached, entry.1 = [sa]
  answers : ∀ n, ∃ addrs, s.answers.get n = .ok addrs ∧ dedupe addrs = [sa]

/-- Two dispatches that have sent as many POSTs, at the same attempts, and wait for the same replies. -/
structure InStep (s u : Dispatching) : Prop where
  replies : s.replies = u.replies
  sent : s.sent.map (·.attempt) = u.sent.map (·.attempt)
  slept : s.slept = u.slept

/-- The one address is resolved, from the cache or anew. -/
theorem resolve_single {sa : SocketAddr} {s : Dispatching} (always : AlwaysResolves sa s) :
    wp (resolveOrCached host) (fun addrs s' => addrs = [sa] ∧ AlwaysResolves sa s' ∧ InStep s' s)
      (fun _ _ => False) s := by
  obtain ⟨addrs, answer, unique⟩ := always.answers 0
  have head : s.answers.head = .ok addrs := answer
  have later : ∀ n, ∃ addrs, s.answers.tail.get n = .ok addrs ∧ dedupe addrs = [sa] :=
    fun n => always.answers (n + 1)
  simp only [resolveOrCached, wp_bind, wp_get]
  cases filled : s.cached with
  | none =>
    simp only [wp_bind, wp_get, wp_set, head, instant, wp_pure, wp_modify]
    refine ⟨unique, ⟨?_, later⟩, rfl, rfl, rfl⟩
    intro entry mem
    cases mem
    exact unique
  | some entry =>
    have known : entry.1 = [sa] := always.cached entry filled
    simp only [wp_bind, instant, wp_get, wp_set, wp_pure, wp_ite, head, wp_modify]
    by_cases fresh : s.instants.head - entry.2 < dnsACacheTtl
    · rw [if_pos fresh]
      exact ⟨known, ⟨always.cached, always.answers⟩, rfl, rfl, rfl⟩
    · rw [if_neg fresh]
      refine ⟨unique, ⟨?_, later⟩, rfl, rfl, rfl⟩
      intro entry mem
      cases mem
      exact unique

/-- The failures of one answer. -/
theorem failures_singleton (result : Outcome × String) :
    inner.failures [result]
      = if result.1 = .twoXx then [] else [(inner.outcomes.forOutcome result.1, result.2)] := by
  by_cases delivered : result.1 = .twoXx
  · simp [Inner.failures, delivered]
  · simp [Inner.failures, delivered]

/-- A round at the one address is an attempt at it. -/
theorem alike_single {sa : SocketAddr} :
    Retry.Alike (fun s u => AlwaysResolves sa s ∧ InStep s u) InStep
      (dnsARounds inner endpoint host) (addressRounds inner endpoint) := by
  rintro attempt s u ⟨always, step⟩
  cases resolved : resolveOrCached host s with
  | error e s₁ =>
    have never := wp_of_error (resolve_single always) resolved
    exact never.elim
  | ok addrs s₁ =>
    obtain ⟨rfl, always₁, step₁⟩ := wp_of_ok (resolve_single always) resolved
    have attempted : (Effect.attempt (resolveOrCached host) : Program NotifyError Dispatching _) s
        = .ok (.ok [sa]) s₁ := by
      rw [Effect.attempt, resolved]
    -- Both sides are answered with the same reply.
    have replies : s₁.replies = u.replies := step₁.replies.trans step.replies
    have sent : s₁.sent.map (·.attempt) = u.sent.map (·.attempt) := step₁.sent.trans step.sent
    have slept : s₁.slept = u.slept := step₁.slept.trans step.slept
    have posted : [sa].mapM (fun sa => postOnce (perAddr endpoint sa attempt) "") s₁
        = .ok [classify u.replies.head ""] (after (postOnce (perAddr endpoint sa attempt) "") s₁) := by
      rw [← replies]
      rfl
    have made' : (addressRounds inner endpoint).round attempt u
        = .ok (classify u.replies.head "") (after (postOnce (asIs endpoint attempt) "") u) := rfl
    have inStep : InStep (after (postOnce (perAddr endpoint sa attempt) "") s₁)
        (after (postOnce (asIs endpoint attempt) "") u) := by
      refine ⟨congrArg Stream'.tail replies, ?_, slept⟩
      show (s₁.sent ++ [perAddr endpoint sa attempt]).map _ = (u.sent ++ [asIs endpoint attempt]).map _
      rw [List.map_append, List.map_append, sent]
      rfl
    have always₂ : AlwaysResolves sa (after (postOnce (perAddr endpoint sa attempt) "") s₁) :=
      ⟨always₁.cached, always₁.answers⟩
    generalize classify u.replies.head "" = result at posted made'
    generalize after (postOnce (perAddr endpoint sa attempt) "") s₁ = met at posted inStep always₂
    generalize after (postOnce (asIs endpoint attempt) "") u = met' at made' inStep
    by_cases delivered : result.1 = .twoXx
    · refine ⟨.answered [result], met, result, met', ?_, made', ?_, ?_, ?_⟩
      · simp only [dnsARounds, bind_of_ok attempted, bind_of_ok posted, failures_singleton,
          if_pos delivered, if_true]
        rfl
      · simp [dnsARounds, addressRounds, Round.retryable, Round.failures, failures_singleton, delivered]
      · simp [dnsARounds, Round.retryable, Round.failures, failures_singleton, delivered]
      · simp only [dnsARounds, addressRounds, Round.failures, failures_singleton, if_pos delivered]
        exact ⟨rfl, inStep⟩
    · -- A failure empties the cache, and the resolver answers with the address again.
      have forgotten : AlwaysResolves sa { met with cached := none } :=
        ⟨by simp, always₂.answers⟩
      have inStep' : InStep { met with cached := none } met' :=
        ⟨inStep.replies, inStep.sent, inStep.slept⟩
      refine ⟨.answered [result], { met with cached := none }, result, met', ?_, made', ?_, ?_, ?_⟩
      · simp only [dnsARounds, bind_of_ok attempted, bind_of_ok posted, failures_singleton,
          if_neg delivered, List.cons_ne_self, if_false]
        rfl
      · simp [dnsARounds, addressRounds, Round.retryable, Round.failures, failures_singleton, delivered]
      · intro _
        refine ⟨_, _, rfl, rfl, ⟨forgotten.cached, forgotten.answers⟩, inStep'.replies, inStep'.sent, ?_⟩
        exact congrArg (· ++ _) inStep'.slept
      · simp only [dnsARounds, addressRounds, Round.failures, failures_singleton, if_neg delivered,
          List.map_cons, List.map_nil, firstError_singleton]
        cases applyFinalAction (inner.outcomes.forOutcome result.1) attempt result.2 with
        | ok done => exact ⟨rfl, inStep'⟩
        | error e => exact ⟨rfl, inStep'⟩

/-- The first error of actions is none exactly when no action has one. -/
theorem firstError_eq_ok {actions : List (Except NotifyError Unit)} :
    firstError actions = .ok () ↔ ∀ action ∈ actions, action = .ok () := by
  induction actions with
  | nil => simp [firstError]
  | cons action actions ih =>
    cases action with
    | ok done => simpa [firstError] using ih
    | error e => simp [firstError]

/-- A final action is an error exactly when it is to fail. -/
theorem applyFinalAction_eq_ok {policy : NotifyOutcome} {attempts : Nat} {lastError : String} :
    applyFinalAction policy attempts lastError = .ok () ↔ policy.final ≠ .fail := by
  cases final : policy.final <;> simp [applyFinalAction, final]

/-- A round delivers exactly when nothing failed in it. -/
theorem delivers_iff {round : Round} : round.Delivers ↔ round.failures inner = [] := by
  cases round with
  | unresolved e => simp [Round.Delivers, Round.failures]
  | answered results => simp [Round.Delivers, Round.failures, Inner.failures]

/-- What the last round comes to: nothing, or the first error of its final actions. -/
theorem finish_eq_ok (inner : Inner) (endpoint : Endpoint) (host : String) (attempt : Nat)
    (round : Round) (s : Dispatching) :
    failure? ((dnsARounds inner endpoint host).finish attempt round) s = none
      ↔ ∀ failure ∈ round.failures inner, failure.1.final ≠ .fail := by
  have actions : (∀ action ∈ (round.failures inner).map fun failure =>
      applyFinalAction failure.1 attempt failure.2, action = .ok ())
      ↔ ∀ failure ∈ round.failures inner, failure.1.final ≠ .fail := by
    simp only [List.forall_mem_map, applyFinalAction_eq_ok]
  rw [← actions, ← firstError_eq_ok]
  simp only [dnsARounds]
  cases firstError ((round.failures inner).map fun failure =>
    applyFinalAction failure.1 attempt failure.2) with
  | ok done => exact iff_of_true rfl rfl
  | error e => exact iff_of_false (by nofun) (by nofun)

/--
A dispatch to every address of a host ends within its budget as its last round says.

The rounds are those that the resolver's answers and the replies make. On a resolver that always
answers with one address, the dispatch does what one to the endpoint's URL does.
-/
theorem dispatchDnsA_spec (budget : 1 ≤ inner.retry.maxAttempts) (s : Dispatching) :
    (∃ before last s', (dnsARounds inner endpoint host).rounds before.length 1 s
        = .ok (before ++ [last]) s'
      ∧ (before ++ [last]).length ≤ inner.retry.maxAttempts
      ∧ (∀ round ∈ before, round.retryable inner = true)
      ∧ (last.retryable inner = true → (before ++ [last]).length = inner.retry.maxAttempts)
      ∧ after (dispatchDnsA inner endpoint host 1) s = s'
      ∧ (failure? (dispatchDnsA inner endpoint host 1) s = none
        ↔ (∃ round ∈ before ++ [last], round.Delivers)
          ∨ ∀ failure ∈ last.failures inner, failure.1.final ≠ .fail)
      ∧ ((failure? (dispatchDnsA inner endpoint host 1) s).isSome = true
        ↔ ∃ failure ∈ last.failures inner, failure.1.final = .fail))
    ∧ ∀ sa, AlwaysResolves sa s →
      Retry.Agree InStep (dispatchDnsA inner endpoint host 1 s)
        (dispatchToAddress inner endpoint 1 "" s) := by
  constructor
  · obtain ⟨before, last, s', made, most, asked, ended, ran⟩ :=
      Retry.run_spec (dnsARounds_total inner endpoint host) 1 budget s
    rw [← dispatchDnsA_eq] at ran
    have count : (before ++ [last]).length = 1 + before.length := by
      rw [List.length_append, List.length_singleton, Nat.add_comm]
    have fails : failure? (dispatchDnsA inner endpoint host 1) s
        = failure? ((dnsARounds inner endpoint host).finish (1 + before.length) last) s' := by
      rw [failure?, ran, failure?]
    have unfailed := finish_eq_ok inner endpoint host (1 + before.length) last s'
    refine ⟨before, last, s', made, count ▸ most, asked, fun again => count ▸ ended again, ?_, ?_, ?_⟩
    · rw [after, ran]
      simp only [dnsARounds]
      cases firstError ((last.failures inner).map fun failure =>
        applyFinalAction failure.1 (1 + before.length) failure.2) <;> rfl
    · rw [fails, unfailed]
      refine ⟨.inr, fun either => either.elim ?_ id⟩
      rintro ⟨round, mem, delivers⟩
      -- A round that delivers asks for no other, so it is the last one.
      have nothing : round.failures inner = [] := delivers_iff.mp delivers
      rcases List.mem_append.mp mem with earlier | final
      · have again : (round.failures inner).any (·.1.retry) = true := asked round earlier
        rw [nothing] at again
        cases again
      · rw [← List.mem_singleton.mp final, nothing]
        intro failure mem
        exact absurd mem List.not_mem_nil
    · rw [fails, Option.isSome_iff_ne_none, ne_eq, unfailed]
      simp
  · intro sa always
    rw [dispatchDnsA_eq, dispatchToAddress_eq]
    exact alike_single.run 1 ⟨always, rfl, rfl, rfl⟩

end Dispatching

namespace DispatchSample

open Dispatching

/-- At most three attempts; a server error is tried again and is skipped in the end. -/
def inner : Inner :=
  ⟨⟨⟨true, .fail⟩, ⟨true, .fail⟩, ⟨false, .accept⟩, ⟨false, .fail⟩, ⟨false, .fail⟩, ⟨true, .skip⟩⟩,
    ⟨3, 100⟩⟩

/-- An endpoint that fans out. -/
def endpoint : Endpoint := ⟨⟨"http", some "hook"⟩, "/", "hook", .dnsA "hook" 80⟩

/-- A resolver that lists its one address twice, before a receiver that answers with server errors. -/
def unavailable : Dispatching where
  cached := none
  answers _ := .ok [⟨"10.0.0.1", 80⟩, ⟨"10.0.0.1", 80⟩]
  replies _ := .response 503 "503 Service Unavailable"
  instants _ := 0
  sent := []
  slept := []

/-- Fanned out or not, the dispatch ends alike. -/
theorem dispatch_unavailable :
    Retry.Agree InStep (dispatchDnsA inner endpoint "hook" 1 unavailable)
      (dispatchToAddress inner endpoint 1 "" unavailable) :=
  (dispatchDnsA_spec (by decide) unavailable).2 ⟨"10.0.0.1", 80⟩
    ⟨by simp [unavailable], fun _ => ⟨_, rfl, by decide⟩⟩

end DispatchSample

end MirrorV3
