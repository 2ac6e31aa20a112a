import HostScript.Http.Request
import HostScript.Proofs.Number.Integers
import HostScript.Proofs.Run.Steps

/-!
# What exchanges do

A request is sent again after each failure that allows it (`Repeats`), with a pause before, until
another reply comes or the count of retries is used up (`IsLast`). So an exchange goes through rounds
of a request and a pause. It comes to its last request, whose reply decides what it gives
(`run_exchange_of_isLast`), or to a pause that cannot be made, and then the run ends there
(`run_exchange_of_pauseFails`). Nothing else can become of it (`exists_course`).
-/

namespace HostScript

namespace HttpReply

/-- A reply is a response with a status of success, and the platform reads its content as a text in
the encoding that the response names. -/
inductive Delivers (platform : Platform) : HttpReply → Text → Prop
  | intro {r : HttpResponse} {t : Text} (hlow : 200 ≤ r.status) (hhigh : r.status < 300)
    (hcontent : platform.decode r.charset r.content = .ok t) :
    Delivers platform (.response r) t

/-- A reply breaks what reads it, with a cause: the client itself broke; a codec breaks over the
content of a response with a status of success; or the client has no text for another response. -/
inductive Breaks (platform : Platform) : HttpReply → InternalFault → Prop
  | client {message : Text} :
    Breaks platform (.failure .clientBroken message) (.clientBroken message)
  | codec {r : HttpResponse} {message : Text} (hlow : 200 ≤ r.status) (hhigh : r.status < 300)
    (hcontent : platform.decode r.charset r.content = .error (.codecBroken message)) :
    Breaks platform (.response r) (.codecBroken message)
  | text {r : HttpResponse} {message : Text} (hstatus : ¬ (200 ≤ r.status ∧ r.status < 300))
    (htext : r.text = .error message) : Breaks platform (.response r) (.clientBroken message)

end HttpReply

/-- The world after some more events, for which some replies were taken. -/
def World.passed (w : World) (events : List Event) (taken : ℕ) : World :=
  { w with events := w.events ++ events.toArray, replies := w.replies.drop taken }

theorem World.passed_passed (w : World) (events events' : List Event) (taken taken' : ℕ) :
    (w.passed events taken).passed events' taken' =
      w.passed (events ++ events') (taken + taken') := by
  simp [passed, List.drop_drop]

theorem World.passed_nil (w : World) : w.passed [] 0 = w := by
  simp [passed]

namespace Http

open Run

variable {platform : Platform} {backoff : Float} {request : HttpRequest} {method : Text}
  {retries attempt k k' : ℕ} {w : World} {replies : List HttpReply} {reply : HttpReply}
  {cause cause' : InternalFault}

/-! ## Replies -/

/-- The reply to the request after `k` others: one of those that are left, or a failed connection
once they have run out. -/
def replyAt (replies : List HttpReply) (k : ℕ) : HttpReply := replies[k]?.getD .exhausted

theorem replyAt_tail (replies : List HttpReply) (k : ℕ) :
    replyAt replies.tail k = replyAt replies (k + 1) := by
  rw [replyAt, replyAt, List.getElem?_tail]

theorem replyAt_drop (replies : List HttpReply) (k : ℕ) :
    replyAt (replies.drop k) 0 = replyAt replies k := by
  rw [replyAt, replyAt, List.getElem?_drop, Nat.add_zero]

/-- A reply after which the request may be sent again. -/
def Repeats (method : Text) (reply : HttpReply) : Prop :=
  ∃ kind message, reply = .failure kind message ∧ mayRepeat method kind = true

theorem not_repeats_of_breaks (h : reply.Breaks platform cause) : ¬ Repeats method reply := by
  rintro ⟨kind, text, hreply, hrepeat⟩
  cases h with
  | client =>
    obtain ⟨rfl, -⟩ := HttpReply.failure.inj hreply
    exact nomatch hrepeat
  | codec => exact nomatch hreply
  | text => exact nomatch hreply

/-! ## The last request -/

/-- The request after `k` others is the last one of an exchange that may send it again `retries`
times: the replies to all others were failures that allow another request, and its own is not, or
no retry is left. -/
structure IsLast (method : Text) (retries : ℕ) (replies : List HttpReply) (k : ℕ) : Prop where
  le : k ≤ retries
  before : ∀ j < k, Repeats method (replyAt replies j)
  last : k = retries ∨ ¬ Repeats method (replyAt replies k)

namespace IsLast

theorem le_of_isLast (h : IsLast method retries replies k) (h' : IsLast method retries replies k') :
    k' ≤ k := by
  by_contra hlt
  rcases h.last with rfl | hlast
  · exact hlt h'.le
  · exact hlast (h'.before k (Nat.lt_of_not_le hlt))

/-- An exchange has one last request. -/
theorem unique (h : IsLast method retries replies k) (h' : IsLast method retries replies k') :
    k = k' :=
  Nat.le_antisymm (h'.le_of_isLast h) (h.le_of_isLast h')

theorem of_tail (hrepeats : Repeats method (replyAt replies 0))
    (h : IsLast method retries replies.tail k) :
    IsLast method (retries + 1) replies (k + 1) where
  le := Nat.succ_le_succ h.le
  before j hj := by
    cases j with
    | zero => exact hrepeats
    | succ j =>
      rw [← replyAt_tail]
      exact h.before j (Nat.lt_of_succ_lt_succ hj)
  last := by
    rw [← replyAt_tail]
    exact h.last.imp (congrArg Nat.succ) id

end IsLast

theorem exists_isLast (method : Text) (retries : ℕ) (replies : List HttpReply) :
    ∃ k, IsLast method retries replies k := by
  induction retries generalizing replies with
  | zero => exact ⟨0, Nat.le_refl 0, nofun, .inl rfl⟩
  | succ retries ih =>
    by_cases hrepeats : Repeats method (replyAt replies 0)
    · obtain ⟨k, hlast⟩ := ih replies.tail
      exact ⟨k + 1, hlast.of_tail hrepeats⟩
    · exact ⟨0, Nat.zero_le _, nofun, .inr hrepeats⟩

/-! ## Pauses -/

/-- The longest exchange: the factor of the pauses doubles, and behind this many requests it is
beyond all numbers. -/
def longest : ℕ := 1024

/-- The seconds of the pause behind the request after `attempt` others. -/
def delay (backoff : Float) (attempt : ℕ) : Float := backoff * Float.ofNat (2 ^ attempt)

/-- There is a pause behind the request after `attempt` others: its length is a number, and the clock
waits for so long. -/
def Pauses (platform : Platform) (backoff : Float) (attempt : ℕ) : Prop :=
  attempt < longest ∧ platform.sleepFault? (delay backoff attempt) = none

/-- There is none, with a cause: its length is no number, or the clock refuses. -/
inductive PauseFails (platform : Platform) (backoff : Float) (attempt : ℕ) : InternalFault → Prop
  | overflow (hlong : longest ≤ attempt) : PauseFails platform backoff attempt .numberOverflow
  | refused {message : Text} (hshort : attempt < longest)
    (hsleep : platform.sleepFault? (delay backoff attempt) = some message) :
    PauseFails platform backoff attempt (.sleepRefused message)

theorem pause_of_pauses (h : Pauses platform backoff attempt) :
    pause platform backoff attempt = .ok (delay backoff attempt) := by
  obtain ⟨hshort, hsleep⟩ := h
  have hfactor := Number.ofInt?_two_pow_of_lt hshort
  rw [delay] at hsleep ⊢
  simp only [pause, hfactor, hsleep]

theorem pause_of_pauseFails (h : PauseFails platform backoff attempt cause) :
    pause platform backoff attempt = .error cause := by
  cases h with
  | overflow hlong =>
    have hfactor := Number.ofInt?_two_pow_eq_none_iff.mpr hlong
    rw [pause, hfactor]
  | refused hshort hsleep =>
    have hfactor := Number.ofInt?_two_pow_of_lt hshort
    rw [delay] at hsleep
    simp only [pause, hfactor, hsleep]

theorem pauses_or_fails (platform : Platform) (backoff : Float) (attempt : ℕ) :
    Pauses platform backoff attempt ∨ ∃ cause, PauseFails platform backoff attempt cause := by
  by_cases hshort : attempt < longest
  · cases hsleep : platform.sleepFault? (delay backoff attempt) with
    | none => exact .inl ⟨hshort, hsleep⟩
    | some message => exact .inr ⟨_, .refused hshort hsleep⟩
  · exact .inr ⟨_, .overflow (Nat.le_of_not_lt hshort)⟩

/-! ## Rounds -/

/-- A request that is sent `count` times, with a pause behind each time. -/
def rounds (backoff : Float) (request : HttpRequest) (count : ℕ) : List Event :=
  (List.range count).flatMap fun j => [.requested request, .slept (delay backoff j)]

theorem rounds_succ (backoff : Float) (request : HttpRequest) (count : ℕ) :
    rounds backoff request (count + 1) =
      rounds backoff request count ++ [.requested request, .slept (delay backoff count)] := by
  rw [rounds, List.range_succ, List.flatMap_append]
  rfl

theorem run_note (event : Event) (w : World) :
    (Run.note event).run w = (.ok (), w.passed [event] 0) := by
  rw [World.passed, List.drop_zero, ← Array.push_eq_append]
  rfl

theorem run_send (request : HttpRequest) (w : World) :
    (send request).run w = (.ok (replyAt w.replies 0), w.passed [.requested request] 1) := by
  rw [World.passed, List.drop_one, ← Array.push_eq_append]
  obtain ⟨scopes, heap, closures, events, link, replies⟩ := w
  cases replies <;> rfl

/-- A request that is sent again. -/
theorem run_exchange_again (hrepeats : Repeats request.method (replyAt w.replies 0))
    (hpauses : Pauses platform backoff attempt) (retries : ℕ) :
    (exchange platform backoff request (retries + 1) attempt).run w =
      (exchange platform backoff request retries (attempt + 1)).run
        (w.passed [.requested request, .slept (delay backoff attempt)] 1) := by
  obtain ⟨kind, message, hreply, hrepeat⟩ := hrepeats
  rw [exchange, run_bind, run_send, hreply]
  dsimp only
  rw [if_pos hrepeat, pause_of_pauses hpauses]
  dsimp only
  rw [run_bind, run_note, World.passed_passed]
  rfl

/-- A request that may be sent again but cannot be, as there is no pause before. -/
theorem run_exchange_unpaused (hrepeats : Repeats request.method (replyAt w.replies 0))
    (hfails : PauseFails platform backoff attempt cause) (retries : ℕ) :
    (exchange platform backoff request (retries + 1) attempt).run w =
      (.error (.internal cause), w.passed [.requested request] 1) := by
  obtain ⟨kind, message, hreply, hrepeat⟩ := hrepeats
  rw [exchange, run_bind, run_send, hreply]
  dsimp only
  rw [if_pos hrepeat, pause_of_pauseFails hfails]
  rfl

/-- An exchange comes to the request after `k` others: so many failures allow another request, and
there is a pause behind each. -/
structure Reaches (platform : Platform) (backoff : Float) (method : Text)
    (replies : List HttpReply) (k : ℕ) : Prop where
  repeats : ∀ j < k, Repeats method (replyAt replies j)
  pauses : ∀ j < k, Pauses platform backoff j

/-- Then it has gone through `k` rounds. -/
theorem run_exchange_rounds (h : Reaches platform backoff request.method w.replies k)
    (retries : ℕ) :
    (exchange platform backoff request (retries + k) 0).run w =
      (exchange platform backoff request retries k).run
        (w.passed (rounds backoff request k) k) := by
  induction k generalizing retries with
  | zero => rw [rounds, List.range_zero, List.flatMap_nil, World.passed_nil, Nat.add_zero]
  | succ k ih =>
    -- the last round is split off: before it one more retry is left
    have hbefore : Reaches platform backoff request.method w.replies k :=
      ⟨fun j hj => h.repeats j (Nat.lt_succ_of_lt hj),
        fun j hj => h.pauses j (Nat.lt_succ_of_lt hj)⟩
    have hlast : Repeats request.method
        (replyAt (w.passed (rounds backoff request k) k).replies 0) := by
      change Repeats request.method (replyAt (w.replies.drop k) 0)
      rw [replyAt_drop]
      exact h.repeats k (Nat.lt_succ_self k)
    have hcount : retries + (k + 1) = retries + 1 + k := by omega
    rw [hcount, ih hbefore, run_exchange_again hlast (h.pauses k (Nat.lt_succ_self k)),
      World.passed_passed, rounds_succ]

/-! ## Ends -/

/-- What is logged about the reply that ends an exchange. -/
def closing (request : HttpRequest) : HttpReply → List Event
  | .response _ => []
  | .failure .rejected _ | .failure .clientBroken _ => []
  | .failure _ message =>
    [.logged ⟨.debug, LogRecord.httpLogger,
      request.method ++ " " ++ request.url ++ " failed: " ++ message⟩]

/-- What becomes of an exchange that ends with a reply. -/
def outcome (platform : Platform) (request : HttpRequest) : HttpReply → Except Halt Value
  | .response r => (valueOfResponse platform request r).mapError .internal
  | .failure .clientBroken message => .error (.internal (.clientBroken message))
  | .failure _ message => .ok (failed request message)

theorem run_conclude (result : Except InternalFault Value) (w : World) :
    (exchange.conclude result).run w = (result.mapError .internal, w) := by
  cases result <;> rfl

theorem run_giveUp (request : HttpRequest) (kind : HttpFailure) (message : Text) (w : World) :
    (exchange.giveUp request kind message).run w =
      (outcome platform request (.failure kind message),
        w.passed (closing request (.failure kind message)) 0) := by
  cases kind with
  | clientBroken | rejected =>
    rw [closing, World.passed_nil]
    rfl
  | _ =>
    rw [closing, exchange.giveUp, run_bind, Run.log, run_note]
    · rfl
    all_goals exact nofun

/-- The last request of an exchange. -/
theorem run_exchange_last (hlast : retries = 0 ∨ ¬ Repeats request.method (replyAt w.replies 0))
    (platform : Platform) (backoff : Float) (attempt : ℕ) :
    (exchange platform backoff request retries attempt).run w =
      (outcome platform request (replyAt w.replies 0),
        w.passed ([.requested request] ++ closing request (replyAt w.replies 0)) 1) := by
  rw [exchange, run_bind, run_send, ← World.passed_passed w [.requested request] _ 1 0]
  generalize replyAt w.replies 0 = reply at hlast
  cases reply with
  | response r =>
    rw [closing, World.passed_nil]
    exact run_conclude _ _
  | failure kind message =>
    dsimp only
    rcases hlast with rfl | hrepeats
    · exact run_giveUp request kind message _
    · have hno : ¬ mayRepeat request.method kind = true :=
        fun hrepeat => hrepeats ⟨kind, message, rfl, hrepeat⟩
      cases retries with
      | zero => exact run_giveUp request kind message _
      | succ retries =>
        dsimp only
        rw [if_neg hno]
        exact run_giveUp request kind message _

/-- An exchange that comes to its last request ends with the reply to it. -/
theorem run_exchange_of_isLast (h : IsLast request.method retries w.replies k)
    (hpauses : ∀ j < k, Pauses platform backoff j) :
    (exchange platform backoff request retries 0).run w =
      (outcome platform request (replyAt w.replies k),
        w.passed (rounds backoff request k ++
          ([.requested request] ++ closing request (replyAt w.replies k))) (k + 1)) := by
  obtain ⟨more, rfl⟩ := Nat.exists_eq_add_of_le' h.le
  let w' := w.passed (rounds backoff request k) k
  have hreply : replyAt w'.replies 0 = replyAt w.replies k := replyAt_drop w.replies k
  have hlast : more = 0 ∨ ¬ Repeats request.method (replyAt w'.replies 0) := by
    rw [hreply]
    exact h.last.imp (by omega) id
  rw [run_exchange_rounds ⟨h.before, hpauses⟩, run_exchange_last hlast, hreply,
    World.passed_passed]

/-- An exchange ends the run behind a request that may be sent again if there is no pause. -/
theorem run_exchange_of_pauseFails (hk : k < retries)
    (h : Reaches platform backoff request.method w.replies k)
    (hrepeats : Repeats request.method (replyAt w.replies k))
    (hfails : PauseFails platform backoff k cause) :
    (exchange platform backoff request retries 0).run w =
      (.error (.internal cause),
        w.passed (rounds backoff request k ++ [.requested request]) (k + 1)) := by
  obtain ⟨more, rfl⟩ : ∃ more, retries = more + 1 + k := ⟨retries - 1 - k, by omega⟩
  have hagain : Repeats request.method
      (replyAt (w.passed (rounds backoff request k) k).replies 0) := by
    change Repeats request.method (replyAt (w.replies.drop k) 0)
    rw [replyAt_drop]
    exact hrepeats
  rw [run_exchange_rounds h, run_exchange_unpaused hagain hfails, World.passed_passed]

/-- An exchange comes to its last request, or to a request before that one behind which there is no
pause. -/
theorem exists_course (platform : Platform) (backoff : Float) (method : Text) (retries : ℕ)
    (replies : List HttpReply) :
    (∃ k, IsLast method retries replies k ∧ ∀ j < k, Pauses platform backoff j) ∨
      ∃ k < retries, Reaches platform backoff method replies k ∧
        Repeats method (replyAt replies k) ∧ ∃ cause, PauseFails platform backoff k cause := by
  classical
  obtain ⟨last, hlast⟩ := exists_isLast method retries replies
  by_cases hpauses : ∀ j < last, Pauses platform backoff j
  · exact .inl ⟨last, hlast, hpauses⟩
  · right
    push Not at hpauses
    -- the first pause that cannot be made
    obtain ⟨hlt, hfirst⟩ := Nat.find_spec hpauses
    refine ⟨Nat.find hpauses, Nat.lt_of_lt_of_le hlt hlast.le, ⟨?_, ?_⟩, hlast.before _ hlt, ?_⟩
    · intro i hi
      exact hlast.before i (hi.trans hlt)
    · intro i hi
      by_contra hnot
      exact Nat.find_min hpauses hi ⟨hi.trans hlt, hnot⟩
    · exact (pauses_or_fails platform backoff _).resolve_left hfirst

/-! ## Values -/

/-- A reply that ends an exchange delivers a string, or breaks what reads it, or gives an error. -/
theorem outcome_cases (platform : Platform) (request : HttpRequest) (reply : HttpReply) :
    (∃ t, reply.Delivers platform t ∧ outcome platform request reply = .ok (.string t)) ∨
    (∃ cause, reply.Breaks platform cause ∧
      outcome platform request reply = .error (.internal cause)) ∨
    (∀ t, ¬ reply.Delivers platform t) ∧ (∀ cause, ¬ reply.Breaks platform cause) ∧
      ∃ message, outcome platform request reply = .ok (.error message) := by
  cases reply with
  | failure kind message =>
    cases kind with
    | clientBroken => exact .inr (.inl ⟨_, .client, rfl⟩)
    | _ => exact .inr (.inr ⟨nofun, nofun, _, rfl⟩)
  | response r =>
    rw [outcome, valueOfResponse]
    split
    · next hstatus =>
      obtain ⟨hlow, hhigh⟩ := hstatus
      cases hcontent : platform.decode r.charset r.content with
      | ok t => exact .inl ⟨t, .intro hlow hhigh hcontent, rfl⟩
      | error fault =>
        cases fault with
        | codecBroken message => exact .inr (.inl ⟨_, .codec hlow hhigh hcontent, rfl⟩)
        | malformed reason =>
          refine .inr (.inr ⟨?_, ?_, _, rfl⟩)
          · rintro t ⟨-, -, hother⟩
            exact nomatch hcontent.symm.trans hother
          · rintro cause (_ | ⟨-, -, hother⟩ | ⟨hnot, -⟩)
            · exact nomatch hcontent.symm.trans hother
            · exact hnot ⟨hlow, hhigh⟩
    · next hstatus =>
      cases htext : r.text with
      | error message => exact .inr (.inl ⟨_, .text hstatus htext, rfl⟩)
      | ok t =>
        refine .inr (.inr ⟨?_, ?_, _, rfl⟩)
        · rintro t' ⟨hlow, hhigh, -⟩
          exact hstatus ⟨hlow, hhigh⟩
        · rintro cause (_ | ⟨hlow, hhigh, -⟩ | ⟨-, hother⟩)
          · exact hstatus ⟨hlow, hhigh⟩
          · exact nomatch htext.symm.trans hother

theorem outcome_of_delivers {t : Text} (h : reply.Delivers platform t)
    (request : HttpRequest) : outcome platform request reply = .ok (.string t) := by
  obtain ⟨hlow, hhigh, hcontent⟩ := h
  rw [outcome, valueOfResponse, if_pos ⟨hlow, hhigh⟩, hcontent]
  rfl

theorem outcome_of_breaks (h : reply.Breaks platform cause) (request : HttpRequest) :
    outcome platform request reply = .error (.internal cause) := by
  cases h with
  | client => rfl
  | codec hlow hhigh hcontent =>
    rw [outcome, valueOfResponse, if_pos ⟨hlow, hhigh⟩, hcontent]
    rfl
  | text hstatus htext =>
    rw [outcome, valueOfResponse, if_neg hstatus, htext]
    rfl

theorem outcome_eq_string_iff (request : HttpRequest) {t : Text} :
    outcome platform request reply = .ok (.string t) ↔ reply.Delivers platform t := by
  refine ⟨fun h => ?_, fun h => outcome_of_delivers h request⟩
  rcases outcome_cases platform request reply with
    ⟨t', hdelivers, hvalue⟩ | ⟨cause, -, hvalue⟩ | ⟨-, -, message, hvalue⟩
  · obtain rfl := Value.string.inj (Except.ok.inj (hvalue.symm.trans h))
    exact hdelivers
  · exact nomatch hvalue.symm.trans h
  · exact nomatch hvalue.symm.trans h

theorem outcome_eq_error_iff (request : HttpRequest) {halt : Halt} :
    outcome platform request reply = .error halt ↔
      ∃ cause, halt = .internal cause ∧ reply.Breaks platform cause := by
  constructor
  · intro h
    rcases outcome_cases platform request reply with
      ⟨t, -, hvalue⟩ | ⟨cause, hbreaks, hvalue⟩ | ⟨-, -, message, hvalue⟩
    · exact nomatch hvalue.symm.trans h
    · exact ⟨cause, (Except.error.inj (hvalue.symm.trans h)).symm, hbreaks⟩
    · exact nomatch hvalue.symm.trans h
  · rintro ⟨cause, rfl, hbreaks⟩
    exact outcome_of_breaks hbreaks request

end Http

end HostScript
