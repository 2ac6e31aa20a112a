import HostScript.Proofs.Http.Outcomes
import HostScript.Proofs.Text.Encoding

/-!
# Sending requests again

A request is sent again after each failure that allows it, until another reply comes or the count of
retries is used up (`IsLast`). Before it is sent again there is a pause, twice as long each time
(`rounds`). The last reply decides what the request gives, if all pauses before it can be made;
otherwise the run ends at the first one that cannot (`request_retries`).
-/

namespace HostScript

/-! ## Replies -/

namespace HttpReply

/-- No connection was made. -/
def FailsToConnect (reply : HttpReply) : Prop := ∃ message, reply = .failure .noConnection message

/-- The transport failed: no connection was made, or it broke. -/
def FailsInTransport (reply : HttpReply) : Prop :=
  reply.FailsToConnect ∨ ∃ message, reply = .failure .brokenConnection message

end HttpReply

namespace Http

open Run

variable {platform : Platform} {retries n k k' : ℕ} {w w' : World} {replies : List HttpReply}
  {reply : HttpReply} {method : Text} {settings : HttpSettings} {data : Option Text}
  {result : Except Halt Value}

/-- A request may be sent again after a failure of the transport, if no connection was made or its
method allows it. -/
theorem repeats_iff : Repeats method reply ↔
    reply.FailsToConnect ∨ method ∈ repeatable ∧ reply.FailsInTransport := by
  constructor
  · rintro ⟨kind, message, rfl, hrepeat⟩
    cases kind with
    | noConnection => exact .inl ⟨message, rfl⟩
    | brokenConnection =>
      exact .inr ⟨List.contains_iff_mem.mp hrepeat, .inr ⟨message, rfl⟩⟩
    | _ => exact nomatch hrepeat
  · rintro (⟨message, rfl⟩ | ⟨hmethod, ⟨message, rfl⟩ | ⟨message, rfl⟩⟩)
    · exact ⟨_, message, rfl, rfl⟩
    · exact ⟨_, message, rfl, rfl⟩
    · exact ⟨_, message, rfl, List.contains_iff_mem.mpr hmethod⟩

theorem repeats_get_iff : Repeats "GET" reply ↔ reply.FailsInTransport := by
  rw [repeats_iff]
  constructor
  · rintro (h | ⟨-, h⟩)
    · exact .inl h
    · exact h
  · intro h
    exact .inr ⟨by decide, h⟩

theorem repeats_post_iff : Repeats "POST" reply ↔ reply.FailsToConnect := by
  have hmethod : ("POST" : Text) ∉ repeatable := by decide
  rw [repeats_iff]
  simp only [hmethod, false_and, or_false]

/-! ## Requests -/

/-- A request as it is sent. -/
def sent (method url : Text) (data : Option Text) (headers : Dict Text) : HttpRequest :=
  ⟨method, url, if data.isSome then headers.putAbsent "Content-Type" plainText else headers,
    data.map (·.flatMap CodePoint.utf8)⟩

/-- What happens up to the request after `count` others. -/
def sendings (settings : HttpSettings) (request : HttpRequest) (count : ℕ) : List Event :=
  preface settings request.method request.url ++ rounds settings.backoff request count ++
    [.requested request]

/-- A request whose body has no surrogates is dispatched as it is. -/
theorem request_of_isScalar (hbody : ∀ t ∈ data, t.IsScalar) (platform : Platform)
    (settings : HttpSettings) (method url : Text) (headers : Dict Text) :
    Http.request platform settings method url data headers =
      dispatch platform settings method url (sent method url data headers).headers
        (sent method url data headers).body := by
  cases data with
  | none => rfl
  | some t =>
    rw [Http.request, Option.map_some, Utf8.encode_of_isScalar (hbody t rfl)]
    rfl

/-- With a client it is exchanged. -/
theorem run_request_of_isScalar (hretries : retryCount settings.retries = .ok n)
    (hbody : ∀ t ∈ data, t.IsScalar) (hclient : Opened platform settings) (method url : Text)
    (headers : Dict Text) (w : World) :
    (Http.request platform settings method url data headers).run w =
      (exchange platform settings.backoff (sent method url data headers) n 0).run
        (w.passed (preface settings method url) 0) := by
  rw [request_of_isScalar hbody, run_dispatch_of_opened hclient, hretries]
  rfl

/-- Of the requests up to the one after `k` others only the last one can have arrived, if none
arrives without a connection. -/
def OnlyLastArrives (replies : List HttpReply) (k : ℕ) : Prop :=
  ∀ arrives : HttpReply → Prop, (∀ reply, reply.FailsToConnect → ¬ arrives reply) →
    ∀ j ≤ k, arrives (replyAt replies j) → j = k

theorem onlyLastArrives_of_isLast (h : IsLast "POST" retries replies k) (hle : k' ≤ k) :
    OnlyLastArrives replies k' := by
  intro arrives hconnection j hj harrives
  by_contra hne
  have hrepeats : Repeats "POST" (replyAt replies j) := h.before j (by omega)
  exact hconnection _ (repeats_post_iff.mp hrepeats) harrives

/-- What is left behind by an exchange of a request in a world, whose last request is the one after
`k` others. If there is a pause before each of these requests, all are sent, and the last reply
decides: there is a string if it delivers one, the run ends if it breaks what reads it, and
everything else is an error. Otherwise the run ends at the first pause that cannot be made. -/
structure Exchanged (platform : Platform) (settings : HttpSettings) (request : HttpRequest)
    (w : World) (k : ℕ) (result : Except Halt Value) (w' : World) : Prop where
  events : (∀ j < k, Pauses platform settings.backoff j) →
    w' = w.passed (sendings settings request k ++ closing request (replyAt w.replies k)) (k + 1)
  string : (∀ j < k, Pauses platform settings.backoff j) → ∀ t,
    result = .ok (.string t) ↔ (replyAt w.replies k).Delivers platform t
  halt : (∀ j < k, Pauses platform settings.backoff j) → ∀ halt,
    result = .error halt ↔
      ∃ cause, halt = .internal cause ∧ (replyAt w.replies k).Breaks platform cause
  error : (∀ j < k, Pauses platform settings.backoff j) →
    (∀ t, ¬ (replyAt w.replies k).Delivers platform t) →
    (∀ cause, ¬ (replyAt w.replies k).Breaks platform cause) →
      ∃ message, result = .ok (.error message)
  unpaused : ∀ j < k, (∀ i < j, Pauses platform settings.backoff i) → ∀ cause,
    PauseFails platform settings.backoff j cause →
      w' = w.passed (sendings settings request j) (j + 1) ∧ result = .error (.internal cause)

theorem exchanged_of_run {request : HttpRequest} (hlast : IsLast request.method n w.replies k)
    (hrun : (exchange platform settings.backoff request n 0).run
      (w.passed (preface settings request.method request.url) 0) = (result, w')) :
    Exchanged platform settings request w k result w' := by
  have hlast' : IsLast request.method n
      (w.passed (preface settings request.method request.url) 0).replies k := hlast
  have hends (hpauses : ∀ j < k, Pauses platform settings.backoff j) :
      result = outcome platform request (replyAt w.replies k) ∧ w' = w.passed
        (sendings settings request k ++ closing request (replyAt w.replies k)) (k + 1) := by
    rw [run_exchange_of_isLast hlast' hpauses] at hrun
    obtain ⟨rfl, rfl⟩ := Prod.mk.inj hrun
    refine ⟨rfl, ?_⟩
    rw [World.passed_passed, Nat.zero_add]
    simp only [sendings, List.append_assoc]
    rfl
  refine ⟨fun hpauses => (hends hpauses).2, fun hpauses t => ?_, fun hpauses halt => ?_,
    fun hpauses hnone hwhole => ?_, fun j hj hbefore cause hfails => ?_⟩
  · rw [(hends hpauses).1]
    exact outcome_eq_string_iff request
  · rw [(hends hpauses).1]
    exact outcome_eq_error_iff request
  · rw [(hends hpauses).1]
    rcases outcome_cases platform request (replyAt w.replies k) with
      ⟨t, hdelivers, -⟩ | ⟨cause, hbreaks, -⟩ | ⟨-, -, message, hvalue⟩
    · exact absurd hdelivers (hnone t)
    · exact absurd hbreaks (hwhole cause)
    · exact ⟨message, hvalue⟩
  · have hreaches : Reaches platform settings.backoff request.method
        (w.passed (preface settings request.method request.url) 0).replies j :=
      ⟨fun i hi => hlast.before i (hi.trans hj), hbefore⟩
    rw [run_exchange_of_pauseFails (Nat.lt_of_lt_of_le hj hlast.le) hreaches (hlast.before j hj)
      hfails] at hrun
    obtain ⟨rfl, rfl⟩ := Prod.mk.inj hrun
    rw [World.passed_passed, sendings, List.append_assoc, Nat.zero_add]
    exact ⟨rfl, rfl⟩

/-- A request is sent again after every failure that allows it, up to the count of retries, with the
pauses of `rounds`, and leaves behind what `Exchanged` says, on every platform that makes a client.
On one that makes none, nothing is sent and the run ends. -/
theorem request_retries (hretries : retryCount settings.retries = .ok n)
    (hbody : ∀ t ∈ data, t.IsScalar) (platform : Platform) (method url : Text)
    (headers : Dict Text)
    (hrun : (Http.request platform settings method url data headers).run w = (result, w')) :
    (∀ reply, (Repeats "GET" reply ↔ reply.FailsInTransport) ∧
        (Repeats "POST" reply ↔ reply.FailsToConnect)) ∧
      (∀ message, Unopened platform settings message →
        result = .error (.internal (.clientBroken message)) ∧
          w' = w.passed [.logged ⟨.debug, LogRecord.httpLogger, method ++ " " ++ url⟩] 0) ∧
      (Opened platform settings → ∃ k, IsLast method n w.replies k ∧
        (method = "POST" → ∀ k' ≤ k, OnlyLastArrives w.replies k') ∧
        Exchanged platform settings (sent method url data headers) w k result w') := by
  refine ⟨fun reply => ⟨repeats_get_iff, repeats_post_iff⟩, fun message hclient => ?_,
    fun hclient => ?_⟩
  · rw [request_of_isScalar hbody, run_dispatch_of_unopened hclient] at hrun
    obtain ⟨rfl, rfl⟩ := Prod.mk.inj hrun
    exact ⟨rfl, rfl⟩
  · obtain ⟨k, hlast⟩ := exists_isLast method n w.replies
    refine ⟨k, hlast, ?_, ?_⟩
    · rintro rfl k' hle
      exact onlyLastArrives_of_isLast hlast hle
    · rw [run_request_of_isScalar hretries hbody hclient] at hrun
      have hlast : IsLast (sent method url data headers).method n w.replies k := hlast
      exact exchanged_of_run hlast hrun

/-! ## Broken connections -/

/-- Settings with which a request is sent again up to so many times, without waiting. -/
def retrying (n : ℤ) : HttpSettings :=
  { HttpSettings.default with retries := .integer n, backoff := 0 }

/-- A world in which the connection breaks once. -/
def interrupted : World :=
  { Session.withoutBootstrap.world with
    replies := [.failure .brokenConnection "reset", .ofBody 200 none []] }

theorem isLast_get_interrupted : IsLast "GET" 1 interrupted.replies 1 where
  le := Nat.le_refl 1
  before j hj := by
    obtain rfl := Nat.lt_one_iff.mp hj
    exact repeats_get_iff.mpr (.inr ⟨_, rfl⟩)
  last := .inl rfl

theorem isLast_post_interrupted : IsLast "POST" 1 interrupted.replies 0 where
  le := Nat.zero_le 1
  before := nofun
  last := by
    refine .inr fun hrepeats => ?_
    obtain ⟨message, hreply⟩ := repeats_post_iff.mp hrepeats
    exact nomatch hreply

theorem request_retries_interrupted :
    ((Http.request .usual (retrying 1) "GET" "u" none .empty).run interrupted).1 =
        .ok (.string []) ∧
      ∃ message, ((Http.request .usual (retrying 1) "POST" "u" (some "b") .empty).run
        interrupted).1 = .ok (.error message) := by
  have hretries : retryCount (retrying 1).retries = .ok 1 := rfl
  constructor
  · have hbody : ∀ t ∈ (none : Option Text), t.IsScalar := by simp
    obtain ⟨-, -, hopened⟩ := request_retries hretries hbody .usual "GET" "u" .empty rfl
    obtain ⟨k, hlast, -, hexchanged⟩ := hopened rfl
    obtain rfl := isLast_get_interrupted.unique hlast
    have hpauses : ∀ j < 1, Pauses .usual (retrying 1).backoff j :=
      fun j hj => ⟨hj.trans (by decide), rfl⟩
    have hcontent : Platform.usual.decode "utf-8" [] = .ok [] := by cbv
    exact (hexchanged.string hpauses []).mpr (.intro (by decide) (by decide) hcontent)
  · have hbody : ∀ t ∈ some ("b" : Text), t.IsScalar := by
      rintro t ⟨⟩ c hc
      obtain rfl := List.mem_singleton.mp hc
      rfl
    obtain ⟨-, -, hopened⟩ := request_retries hretries hbody .usual "POST" "u" .empty rfl
    obtain ⟨k, hlast, -, hexchanged⟩ := hopened rfl
    obtain rfl := isLast_post_interrupted.unique hlast
    apply hexchanged.error
    · intro j hj
      exact absurd hj (Nat.not_lt_zero j)
    · rintro t ⟨⟩
    · rintro cause ⟨⟩

/-- A world in which no connection is ever made. -/
def unreachable : World := { Session.withoutBootstrap.world with replies := [] }

theorem isLast_unreachable (n : ℕ) : IsLast "GET" n unreachable.replies n where
  le := Nat.le_refl n
  before _ _ := repeats_get_iff.mpr (.inl ⟨_, rfl⟩)
  last := .inl rfl

/-- Without a connection, a request that may be sent again more often than a pause can be made ends
the run, although the clock never refuses to wait. -/
theorem run_request_unreachable (h : longest < n) :
    ((Http.request .usual (retrying n) "GET" "u" none .empty).run unreachable).1 =
      .error (.internal .numberOverflow) := by
  have hretries : retryCount (retrying n).retries = .ok n := retryCount_ofNat n
  have hbody : ∀ t ∈ (none : Option Text), t.IsScalar := by simp
  have hopened : Opened .usual (retrying n) := rfl
  have hrun := run_request_of_isScalar hretries hbody hopened "GET" "u" .empty unreachable
  have hexchanged := exchanged_of_run (isLast_unreachable n) (hrun.symm.trans Prod.mk.eta.symm)
  have hpauses : ∀ i < longest, Pauses .usual (retrying n).backoff i := fun i hi => ⟨hi, rfl⟩
  exact (hexchanged.unpaused longest h hpauses _ (.overflow (Nat.le_refl longest))).2

theorem unreachable_ends :
    ((Http.request .usual (retrying 1025) "GET" "u" none .empty).run unreachable).1 =
      .error (.internal .numberOverflow) :=
  run_request_unreachable (n := 1025) (by decide)

end Http

end HostScript
