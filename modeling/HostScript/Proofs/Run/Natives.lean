import HostScript.Proofs.Run.Confined
import HostScript.Proofs.Run.Ensures

/-!
# Native functions stay within bounds

A native function that is called with values within bounds, in a world that is confined within them,
leaves such a world and gives a value within bounds (`stays_callNative`). It blames no place for a
fault. Functions that reach out to a host or a server change nothing but the link and what is still
to come back.
-/

namespace HostScript

variable {b : Bounds} {w₀ : World}

/-! ## Runs -/

namespace Run

variable {α : Type}

/-- From a world that is confined within bounds a run comes to such a world, with a result that
satisfies `Q`, or blames a place within bounds. -/
abbrev Stays (b : Bounds) (w₀ : World) (m : Run α) (Q : α → Prop) : Prop :=
  Ensures (w₀.Confined b) (Halt.Within b) m Q

theorem stays_heap : Stays b w₀ heap (w₀.heap.Confined b) :=
  ensures_bind ensures_get fun _ hw => ensures_pure hw.heap

theorem stays_onHeap {f : Heap → α × Heap} {Q : α → Prop}
    (hf : ∀ h, w₀.heap.Confined b h → Q (f h).1 ∧ w₀.heap.Confined b (f h).2) :
    Stays b w₀ (onHeap f) Q := by
  refine ensures_modifyGet fun w hw => ?_
  obtain ⟨hq, hc⟩ := hf w.heap hw.heap
  exact ⟨⟨hw.scopes, hc⟩, hq⟩

theorem stays_note (e : Event) : Stays b w₀ (note e) fun _ => True :=
  ensures_modify fun _ hw => ⟨hw.scopes, hw.heap⟩

end Run

/-! ## Arguments -/

/-- What a native function is given is within bounds. -/
def Arguments.Within (b : Bounds) : (kinds : List Kind) → Arguments kinds → Prop
  | [], _ => True
  | k :: kinds, (payload, rest) => (k.value payload).Within b ∧ Arguments.Within b kinds rest

theorem readKinds_within {kinds : List Kind} {position : Nat} {values : List Value}
    {arguments : Arguments kinds} (hv : ∀ v ∈ values, v.Within b)
    (hr : readKinds position kinds values = .ok arguments) : arguments.Within b kinds := by
  induction kinds generalizing position values with
  | nil => trivial
  | cons k kinds ih =>
    cases values with
    | nil => simp [readKinds] at hr
    | cons v values =>
      simp only [readKinds] at hr
      obtain ⟨hfirst, hrest⟩ := List.forall_mem_cons.mp hv
      split at hr
      · simp at hr
      · next payload hp =>
        cases hk : readKinds (position + 1) kinds values with
        | error fault => simp [hk, Except.map] at hr
        | ok rest =>
          obtain rfl : (payload, rest) = arguments := by simpa [hk, Except.map] using hr
          rw [Kind.read?_eq_some_iff] at hp
          exact ⟨hp ▸ hfirst, ih hrest hk⟩

theorem stays_withArguments {name : Text} {kinds : List Kind} {values : List Value}
    {body : Arguments kinds → Run Value} (hv : ∀ v ∈ values, v.Within b)
    (hb : ∀ arguments, arguments.Within b kinds → Run.Stays b w₀ (body arguments) (Value.Within b)) :
    Run.Stays b w₀ (withArguments name kinds values body) (Value.Within b) := by
  unfold withArguments
  split
  · next arguments hr =>
    refine hb arguments ?_
    unfold readArguments at hr
    split at hr
    · simp at hr
    · exact readKinds_within hv hr
  · exact Run.ensures_pure trivial

/-! ## The standard library -/

namespace StandardFunction

open Run

theorem stays_displayText (setup : Setup) (v : Value) :
    Stays b w₀ (displayText setup v) fun _ => True := by
  refine ensures_bind stays_heap fun h _ => ?_
  split
  · exact ensures_pure trivial
  · exact ensures_halt trivial

theorem stays_printLine (setup : Setup) (values : List Value) :
    Stays b w₀ (printLine setup values) (Value.Within b) := by
  refine ensures_bind (ensures_mapM fun v _ => stays_displayText setup v) fun texts _ => ?_
  dsimp only
  split
  · exact ensures_halt trivial
  · exact ensures_bind (stays_note _) fun _ _ => ensures_pure trivial

theorem stays_nestedTooDeeply (setup : Setup) (message : Text) :
    Stays b w₀ (nestedTooDeeply setup message) (Value.Within b) := by
  unfold nestedTooDeeply
  split
  · exact ensures_pure trivial
  · exact ensures_halt trivial

theorem stays_writeJson (setup : Setup) (v : Value) :
    Stays b w₀ (writeJson setup v) (Value.Within b) := by
  refine ensures_bind stays_heap fun h _ => ?_
  split
  · exact ensures_pure trivial
  · exact ensures_pure trivial
  · exact stays_nestedTooDeeply setup _

theorem stays_readJson (setup : Setup) (t : Text) :
    Stays b w₀ (readJson setup t) (Value.Within b) := by
  unfold readJson
  split
  · exact stays_onHeap fun h hc => hc.load _
  · exact ensures_pure trivial
  · exact stays_nestedTooDeeply setup _

theorem truncated_within (t : Text) (width : Float) : (Value.truncated t width).Within b := by
  unfold Value.truncated
  split
  · trivial
  · split
    · trivial
    · split <;> trivial

theorem rendered_within (t : Text) (width height scroll : Float) :
    (Value.rendered t width height scroll).Within b := by
  unfold Value.rendered
  split <;> trivial

theorem floored_within (x : Float) : (Value.floored x).Within b := by
  unfold Value.floored
  split <;> trivial

theorem stays_call (setup : Setup) (f : StandardFunction) {values : List Value}
    (hv : ∀ v ∈ values, v.Within b) : Stays b w₀ (f.call setup values) (Value.Within b) := by
  cases f with
  | print => exact stays_printLine setup values
  | toString =>
    refine stays_withArguments hv fun (v, _) _ => ?_
    exact ensures_bind (stays_displayText setup v) fun _ _ => ensures_pure trivial
  | toJson => exact stays_withArguments hv fun (v, _) _ => stays_writeJson setup v
  | fromJson => exact stays_withArguments hv fun (t, _) _ => stays_readJson setup t
  | createArray => exact stays_onHeap fun h hc => hc.createArray hv
  | arrayLen =>
    refine stays_withArguments hv fun (id, _) _ => ?_
    exact ensures_bind stays_heap fun _ _ => ensures_pure trivial
  | arrayGet =>
    refine stays_withArguments hv fun (id, x, _) ⟨hid, _⟩ => ?_
    exact ensures_bind stays_heap fun h hc => ensures_pure (hc.arrayGet hid x)
  | arraySet =>
    refine stays_withArguments hv fun (id, x, v, _) ⟨hid, _, hin, _⟩ => ?_
    exact stays_onHeap fun h hc => hc.arraySet hid x hin
  | arrayPushBack =>
    refine stays_withArguments hv fun (id, v, _) ⟨hid, hin, _⟩ => ?_
    exact stays_onHeap fun h hc => ⟨trivial, hc.arrayPushBack hid hin⟩
  | arrayPopBack =>
    refine stays_withArguments hv fun (id, _) ⟨hid, _⟩ => ?_
    exact stays_onHeap fun h hc => hc.arrayPopBack hid
  | arrayInsert =>
    refine stays_withArguments hv fun (id, x, v, _) ⟨hid, _, hin, _⟩ => ?_
    exact stays_onHeap fun h hc => hc.arrayInsert hid x hin
  | arrayRemove =>
    refine stays_withArguments hv fun (id, x, _) ⟨hid, _⟩ => ?_
    exact stays_onHeap fun h hc => hc.arrayRemove hid x
  | createTable =>
    exact stays_withArguments hv fun _ _ => stays_onHeap fun h hc => hc.createTable
  | tableSet =>
    refine stays_withArguments hv fun (id, key, v, _) ⟨hid, _, hin, _⟩ => ?_
    exact stays_onHeap fun h hc => ⟨trivial, hc.tableSet hid key hin⟩
  | tableGet =>
    refine stays_withArguments hv fun (id, key, _) ⟨hid, _⟩ => ?_
    exact ensures_bind stays_heap fun h hc => ensures_pure (hc.tableGet hid key)
  | tableKeys =>
    exact stays_withArguments hv fun (id, _) _ => stays_onHeap fun h hc => hc.tableKeys id
  | tableMerge =>
    refine stays_withArguments hv fun (destination, source, _) ⟨hd, hs, _⟩ => ?_
    exact stays_onHeap fun h hc => ⟨trivial, hc.tableMerge hd hs⟩
  | stringSplitLines =>
    exact stays_withArguments hv fun (t, _) _ => stays_onHeap fun h hc => hc.splitLines t
  | stringLen => exact stays_withArguments hv fun _ _ => ensures_pure trivial
  | stringContains => exact stays_withArguments hv fun _ _ => ensures_pure trivial
  | stringToLower => exact stays_withArguments hv fun _ _ => ensures_pure trivial
  | stringWidth => exact stays_withArguments hv fun _ _ => ensures_pure trivial
  | stringTruncateToWidth =>
    exact stays_withArguments hv fun (t, x, _) _ => ensures_pure (truncated_within t x)
  | renderViewport =>
    exact stays_withArguments hv fun (t, x, y, z, _) _ => ensures_pure (rendered_within t x y z)
  | floor => exact stays_withArguments hv fun (x, _) _ => ensures_pure (floored_within x)

end StandardFunction

/-! ## Runs that change no place -/

/-- A value that refers to no place. -/
def Value.Plain (v : Value) : Prop := ∀ b, v.Within b

section

variable {scopes : Scopes Value} {heap : Heap}

namespace Run

variable {α : Type}

/-- A run leaves these scopes, arrays and tables as they are, and blames no place. -/
abbrev Spares (scopes : Scopes Value) (heap : Heap) (m : Run α) (Q : α → Prop) : Prop :=
  Ensures (fun w => w.scopes = scopes ∧ w.heap = heap) (fun halt => ∀ b, halt.Within b) m Q

theorem stays_of_spares {m : Run Value} (hm : ∀ scopes heap, Spares scopes heap m Value.Plain) :
    Stays b w₀ m (Value.Within b) := by
  intro w hw
  obtain ⟨⟨hscopes, hheap⟩, hresult⟩ := hm w.scopes w.heap w ⟨rfl, rfl⟩
  refine ⟨⟨hscopes ▸ hw.scopes, hheap ▸ hw.heap⟩, ?_⟩
  cases hr : (m.run w).1 with
  | ok v =>
    rw [hr] at hresult
    exact hresult b
  | error halt =>
    rw [hr] at hresult
    exact hresult b

theorem spares_note (e : Event) : Spares scopes heap (note e) fun _ => True :=
  ensures_modify fun _ hw => hw

theorem spares_withArguments {name : Text} {kinds : List Kind} {values : List Value}
    {body : Arguments kinds → Run Value}
    (hb : ∀ arguments, Spares scopes heap (body arguments) Value.Plain) :
    Spares scopes heap (withArguments name kinds values body) Value.Plain := by
  unfold withArguments
  split
  · exact hb _
  · exact ensures_pure fun _ => trivial

end Run

/-! ## Requests -/

namespace Http

open Run

theorem spares_send (request : HttpRequest) : Spares scopes heap (send request) fun _ => True := by
  refine ensures_bind (spares_note _) fun _ _ => ensures_modifyGet fun w hw => ?_
  split
  · exact ⟨hw, trivial⟩
  · exact ⟨hw, trivial⟩

theorem spares_giveUp (request : HttpRequest) (kind : HttpFailure) (message : Text) :
    Spares scopes heap (exchange.giveUp request kind message) Value.Plain := by
  unfold exchange.giveUp
  split
  · exact ensures_halt fun _ => trivial
  · exact ensures_pure fun _ => trivial
  · exact ensures_bind (spares_note _) fun _ _ => ensures_pure fun _ => trivial

theorem spares_conclude (platform : Platform) (request : HttpRequest) (r : HttpResponse) :
    Spares scopes heap (exchange.conclude (valueOfResponse platform request r)) Value.Plain := by
  cases h : valueOfResponse platform request r with
  | error cause => exact ensures_halt fun _ => trivial
  | ok v =>
    apply ensures_pure
    intro b
    rcases valueOfResponse_cases h with ⟨t, rfl⟩ | ⟨message, rfl⟩
    · trivial
    · trivial

theorem spares_exchange (platform : Platform) (backoff : Float) (request : HttpRequest)
    (retries attempt : Nat) :
    Spares scopes heap (exchange platform backoff request retries attempt) Value.Plain := by
  induction retries generalizing attempt with
  | zero =>
    unfold exchange
    refine ensures_bind (spares_send request) fun reply _ => ?_
    split
    · exact spares_conclude platform request _
    · exact spares_giveUp request _ _
  | succ retries ih =>
    unfold exchange
    refine ensures_bind (spares_send request) fun reply _ => ?_
    split
    · exact spares_conclude platform request _
    · dsimp only
      split
      · split
        · exact ensures_halt fun _ => trivial
        · exact ensures_bind (spares_note _) fun _ _ => ih (attempt + 1)
      · exact spares_giveUp request _ _

theorem spares_dispatch (platform : Platform) (settings : HttpSettings) (method url : Text)
    (headers : Dict Text) (body : Option Bytes) :
    Spares scopes heap (dispatch platform settings method url headers body) Value.Plain := by
  refine ensures_bind (spares_note _) fun _ _ => ?_
  split
  · exact ensures_halt fun _ => trivial
  · refine ensures_bind (spares_note _) fun _ _ => ?_
    split
    · exact ensures_halt fun _ => trivial
    · exact spares_exchange _ _ _ _ _

theorem spares_request (platform : Platform) (settings : HttpSettings) (method url : Text)
    (data : Option Text) (headers : Dict Text) :
    Spares scopes heap (request platform settings method url data headers) Value.Plain := by
  rcases request_cases platform settings method url data headers with
    ⟨fault, h⟩ | ⟨headers', body, h⟩
  · rw [h]
    exact ensures_halt fun _ => trivial
  · rw [h]
    exact spares_dispatch _ _ _ _ _ _

theorem spares_call (setup : Setup) (f : HttpFunction) (values : List Value) :
    Spares scopes heap (call setup f values) Value.Plain := by
  cases f with
  | get => exact spares_withArguments fun _ => spares_request _ _ _ _ _ _
  | post => exact spares_withArguments fun _ => spares_request _ _ _ _ _ _
  | postWithToken => exact spares_withArguments fun _ => spares_request _ _ _ _ _ _

end Http

/-! ## Hosts -/

namespace Host

open Run

theorem spares_convertResult (m : HostMethod) (result : Json) :
    Spares scopes heap (convertResult m result) Value.Plain := by
  unfold convertResult
  split
  · exact ensures_pure fun _ => trivial
  · split
    · exact ensures_pure fun _ => trivial
    · exact ensures_halt fun _ => trivial
  · exact ensures_pure fun _ => trivial
  · exact ensures_pure fun _ => trivial
  · exact ensures_pure fun _ => trivial

theorem spares_conclusion (setup : Setup) (m : HostMethod) (link : Link) (answer : Answer) :
    Spares scopes heap (conclusion setup m link answer) Value.Plain := by
  cases answer with
  | text t =>
    simp only [conclusion]
    split
    · next h hr =>
      refine ensures_halt fun _ => ?_
      unfold readAnswer at hr
      split at hr
      · obtain rfl := Except.error.inj hr
        trivial
      · split at hr <;> simp at hr
    · exact ensures_pure fun _ => trivial
    · exact spares_convertResult m _
  | cancelled => exact ensures_halt fun _ => trivial
  | stopped => exact ensures_halt fun _ => trivial
  | silent =>
    simp only [conclusion]
    split
    · exact ensures_halt fun _ => trivial
    · split
      · exact ensures_pure fun _ => trivial
      · exact ensures_halt fun _ => trivial
  | unhashable reason => exact ensures_halt fun _ => trivial
  | tooDeep => exact ensures_halt fun _ => trivial

theorem spares_exchange (setup : Setup) (m : HostMethod) (link : Link) (parameters : List Json) :
    Spares scopes heap (exchange setup m link parameters) Value.Plain := by
  refine ensures_bind ensures_get fun w _ => ?_
  refine ensures_bind (ensures_modify fun _ hw => hw) fun _ _ => ?_
  split
  · exact spares_conclusion setup m _ _
  · unfold unmeasured
    split <;> exact ensures_halt fun _ => trivial

theorem spares_call (setup : Setup) (m : HostMethod) (values : List Value) :
    Spares scopes heap (call setup m values) Value.Plain := by
  unfold call
  split
  · exact ensures_pure fun _ => trivial
  · refine ensures_bind ensures_get fun w _ => ?_
    split
    · split
      · exact spares_exchange setup m _ _
      · exact ensures_halt fun _ => trivial
    · exact ensures_halt fun _ => trivial

end Host

end

/-- Native functions stay within bounds. -/
theorem Run.stays_callNative (setup : Setup) (depth : Nat) (f : Native) {values : List Value}
    (hv : ∀ v ∈ values, v.Within b) :
    Stays b w₀ (callNative setup depth f values) (Value.Within b) := by
  cases f with
  | standard f => exact f.stays_call { setup with depth } hv
  | http f => exact stays_of_spares fun _ _ => Http.spares_call setup f values
  | host m => exact stays_of_spares fun _ _ => Host.spares_call setup m values

end HostScript
