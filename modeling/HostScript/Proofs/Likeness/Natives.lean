import HostScript.Proofs.Likeness.Lockstep

/-!
# Native functions in lockstep

Called on arguments that are alike, a native function does the same in worlds that are alike: what
it prints, asks the host for and requests does not depend on the code of functions.
-/

namespace HostScript

variable {b : Likeness} {kinds : List ScopeKind}

/-! ## Arguments -/

/-- Arguments that are alike, one by one. -/
def Arguments.Like (b : Likeness) (kinds : List ScopeKind) :
    (parameters : List Kind) → Arguments parameters → Arguments parameters → Prop
  | [], _, _ => True
  | k :: parameters, (x, xs), (y, ys) =>
    (k.value x).Like b kinds (k.value y) ∧ Arguments.Like b kinds parameters xs ys

/-- The outcomes of reading values that are alike. -/
def ReadsLike (b : Likeness) (kinds : List ScopeKind) (parameters : List Kind) :
    Except ArgumentFault (Arguments parameters) → Except ArgumentFault (Arguments parameters) → Prop
  | .ok xs, .ok ys => Arguments.Like b kinds parameters xs ys
  | .error fault, .error fault' => fault' = fault
  | _, _ => False

theorem Kind.read?_like (k : Kind) {u v : Value} (h : u.Like b kinds v) :
    Option.Rel (fun x y => (k.value x).Like b kinds (k.value y)) (k.read? u) (k.read? v) := by
  rcases h.cases with rfl | ⟨c, d, rfl, rfl, hc⟩
  · cases hr : k.read? v with
    | none => exact .none
    | some x =>
      rw [Kind.read?_eq_some_iff] at hr
      exact .some (hr ▸ h)
  · cases k <;> first | exact .none | exact .some h

theorem readKinds_like (parameters : List Kind) (position : Nat) {values values' : List Value}
    (h : List.Forall₂ (Value.Like b kinds) values values') :
    ReadsLike b kinds parameters (readKinds position parameters values)
      (readKinds position parameters values') := by
  induction parameters generalizing position values values' with
  | nil => exact trivial
  | cons k parameters ih =>
    cases h with
    | nil => exact rfl
    | @cons u v rest rest' hfirst hrest =>
      have hread := k.read?_like hfirst
      have hmore := ih (position + 1) hrest
      simp only [readKinds, hfirst.kindName]
      generalize k.read? u = x at hread ⊢
      generalize k.read? v = y at hread ⊢
      generalize readKinds (position + 1) parameters rest = xs at hmore ⊢
      generalize readKinds (position + 1) parameters rest' = ys at hmore ⊢
      cases hread with
      | none => exact rfl
      | some hxy =>
        cases xs <;> cases ys
        · exact hmore
        · exact hmore
        · exact hmore
        · exact ⟨hxy, hmore⟩

theorem readArguments_like (parameters : List Kind) {values values' : List Value}
    (h : List.Forall₂ (Value.Like b kinds) values values') :
    ReadsLike b kinds parameters (readArguments parameters values)
      (readArguments parameters values') := by
  simp only [readArguments, h.length_eq]
  split
  · exact rfl
  · exact readKinds_like parameters 1 h

open Run in
theorem lockstep_withArguments {name : Text} {parameters : List Kind} {values values' : List Value}
    {body : Arguments parameters → Run Value} (hv : List.Forall₂ (Value.Like b kinds) values values')
    (h : ∀ xs ys, Arguments.Like b kinds parameters xs ys →
      Lockstep b kinds (body xs) (body ys) (Value.Like b)) :
    Lockstep b kinds (withArguments name parameters values body)
      (withArguments name parameters values' body) (Value.Like b) := by
  have hread := readArguments_like parameters hv
  unfold withArguments
  generalize readArguments parameters values = xs at hread ⊢
  generalize readArguments parameters values' = ys at hread ⊢
  cases xs <;> cases ys
  · obtain rfl : _ = _ := hread
    exact lockstep_pure rfl
  · exact hread.elim
  · exact hread.elim
  · exact h _ _ hread

/-- The kinds of parameters that take no functions. -/
def Kind.isPlain : Kind → Bool
  | .function => false
  | .any => false
  | _ => true

theorem Kind.eq_of_like {k : Kind} (hk : k.isPlain = true) {x y : k.Payload}
    (h : (k.value x).Like b kinds (k.value y)) : y = x := by
  cases k with
  | any => cases hk
  | function => cases hk
  | _ => simpa [Kind.value] using h

theorem Arguments.Like.eq {parameters : List Kind} (hp : ∀ k ∈ parameters, k.isPlain = true)
    {xs ys : Arguments parameters} (h : Arguments.Like b kinds parameters xs ys) : ys = xs := by
  induction parameters with
  | nil => rfl
  | cons k parameters ih =>
    obtain ⟨hk, hrest⟩ := List.forall_mem_cons.mp hp
    exact Prod.ext (Kind.eq_of_like hk h.1) (ih hrest h.2)

open Run in
/-- A native function whose arguments are no functions is called on the same ones. -/
theorem lockstep_withPlain {name : Text} {parameters : List Kind} {values values' : List Value}
    {body : Arguments parameters → Run Value} (hv : List.Forall₂ (Value.Like b kinds) values values')
    (hp : ∀ k ∈ parameters, k.isPlain = true)
    (h : ∀ xs, Lockstep b kinds (body xs) (body xs) (Value.Like b)) :
    Lockstep b kinds (withArguments name parameters values body)
      (withArguments name parameters values' body) (Value.Like b) := by
  refine lockstep_withArguments hv fun xs ys hlike => ?_
  obtain rfl := hlike.eq hp
  exact h ys

/-! ## The standard library -/

namespace StandardFunction

open Run

theorem lockstep_displayText (setup : Setup) {u v : Value} (hv : u.Like b kinds v) :
    Lockstep b kinds (displayText setup u) (displayText setup v) fun _ t t' => t' = t := by
  refine lockstep_bind lockstep_heap fun more hmore h h' hl => ?_
  rw [(hv.mono hmore).display hl]
  split
  · exact lockstep_pure rfl
  · exact lockstep_halt rfl

theorem lockstep_printLine (setup : Setup) {values values' : List Value}
    (hv : List.Forall₂ (Value.Like b kinds) values values') :
    Lockstep b kinds (printLine setup values) (printLine setup values') (Value.Like b) := by
  have htexts : Lockstep b kinds (values.mapM (displayText setup))
      (values'.mapM (displayText setup)) fun _ => List.Forall₂ fun t t' => t' = t :=
    lockstep_mapM (fun _ h => h) hv fun more hmore u v h => lockstep_displayText setup (h.mono hmore)
  refine lockstep_bind htexts fun more hmore texts texts' h => ?_
  obtain rfl : texts' = texts := by
    induction h with
    | nil => rfl
    | cons hfirst _ ih => rw [hfirst, ih]
  dsimp only
  split
  · exact lockstep_halt rfl
  · exact lockstep_bind (lockstep_note _) fun _ _ _ _ _ => lockstep_pure rfl

theorem lockstep_nestedTooDeeply (setup : Setup) (message : Text) :
    Lockstep b kinds (nestedTooDeeply setup message) (nestedTooDeeply setup message)
      (Value.Like b) := by
  unfold nestedTooDeeply
  split
  · exact lockstep_pure rfl
  · exact lockstep_halt rfl

theorem lockstep_writeJson (setup : Setup) {u v : Value} (hv : u.Like b kinds v) :
    Lockstep b kinds (writeJson setup u) (writeJson setup v) (Value.Like b) := by
  refine lockstep_bind lockstep_heap fun more hmore h h' hl => ?_
  rw [(hv.mono hmore).document hl]
  split
  · exact lockstep_pure rfl
  · exact lockstep_pure rfl
  · exact lockstep_nestedTooDeeply setup _

theorem lockstep_readJson (setup : Setup) (t : Text) :
    Lockstep b kinds (readJson setup t) (readJson setup t) (Value.Like b) := by
  unfold readJson
  split
  · exact lockstep_onHeap fun hl => hl.load _
  · exact lockstep_pure rfl
  · exact lockstep_nestedTooDeeply setup _

theorem like_truncated (t : Text) (width : Float) :
    (Value.truncated t width).Like b kinds (Value.truncated t width) := by
  unfold Value.truncated
  split
  · rfl
  · split
    · rfl
    · split <;> rfl

theorem like_rendered (t : Text) (width height scroll : Float) :
    (Value.rendered t width height scroll).Like b kinds (Value.rendered t width height scroll) := by
  unfold Value.rendered
  split <;> rfl

theorem like_floored (x : Float) : (Value.floored x).Like b kinds (Value.floored x) := by
  unfold Value.floored
  split <;> rfl

theorem lockstep_call (setup : Setup) (f : StandardFunction) {values values' : List Value}
    (hv : List.Forall₂ (Value.Like b kinds) values values') :
    Lockstep b kinds (f.call setup values) (f.call setup values') (Value.Like b) := by
  cases f with
  | print => exact lockstep_printLine setup hv
  | toString =>
    refine lockstep_withArguments hv fun (u, _) (v, _) ⟨huv, _⟩ => ?_
    exact lockstep_return (lockstep_displayText setup huv) fun _ _ _ _ h => congrArg Value.string h
  | toJson => exact lockstep_withArguments hv fun _ _ h => lockstep_writeJson setup h.1
  | fromJson =>
    exact lockstep_withPlain hv (by decide) fun (t, _) => lockstep_readJson setup t
  | createArray => exact lockstep_onHeap fun hl => hl.createArray hv
  | arrayLen =>
    refine lockstep_withPlain hv (by decide) fun (id, _) => ?_
    exact lockstep_return lockstep_heap fun _ _ _ _ hl => hl.arrayLen id
  | arrayGet =>
    refine lockstep_withPlain hv (by decide) fun (id, x, _) => ?_
    exact lockstep_return lockstep_heap fun _ _ _ _ hl => hl.arrayGet id x
  | arraySet =>
    refine lockstep_withArguments hv fun (id, x, u, _) (id', x', v, _) ⟨hid, hx, huv, _⟩ => ?_
    obtain rfl : id' = id := Value.array.inj hid
    obtain rfl : x' = x := Value.number.inj hx
    exact lockstep_onHeap fun hl => hl.arraySet id' x' huv
  | arrayPushBack =>
    refine lockstep_withArguments hv fun (id, u, _) (id', v, _) ⟨hid, huv, _⟩ => ?_
    obtain rfl : id' = id := Value.array.inj hid
    exact lockstep_onHeap fun hl => hl.arrayPushBack id' huv
  | arrayPopBack =>
    exact lockstep_withPlain hv (by decide) fun (id, _) =>
      lockstep_onHeap fun hl => hl.arrayPopBack id
  | arrayInsert =>
    refine lockstep_withArguments hv fun (id, x, u, _) (id', x', v, _) ⟨hid, hx, huv, _⟩ => ?_
    obtain rfl : id' = id := Value.array.inj hid
    obtain rfl : x' = x := Value.number.inj hx
    exact lockstep_onHeap fun hl => hl.arrayInsert id' x' huv
  | arrayRemove =>
    exact lockstep_withPlain hv (by decide) fun (id, x, _) =>
      lockstep_onHeap fun hl => hl.arrayRemove id x
  | createTable =>
    exact lockstep_withPlain hv (by decide) fun _ => lockstep_onHeap fun hl => hl.createTable
  | tableSet =>
    refine lockstep_withArguments hv fun (id, key, u, _) (id', key', v, _) ⟨hid, hkey, huv, _⟩ => ?_
    obtain rfl : id' = id := Value.table.inj hid
    obtain rfl : key' = key := Value.string.inj hkey
    exact lockstep_onHeap fun hl => ⟨rfl, hl.tableSet id' key' huv⟩
  | tableGet =>
    refine lockstep_withPlain hv (by decide) fun (id, key, _) => ?_
    exact lockstep_return lockstep_heap fun _ _ _ _ hl => hl.tableGet id key
  | tableKeys =>
    exact lockstep_withPlain hv (by decide) fun (id, _) =>
      lockstep_onHeap fun hl => hl.tableKeys id
  | tableMerge =>
    exact lockstep_withPlain hv (by decide) fun (destination, source, _) =>
      lockstep_onHeap fun hl => hl.tableMerge destination source
  | stringSplitLines =>
    exact lockstep_withPlain hv (by decide) fun (t, _) =>
      lockstep_onHeap fun hl => hl.splitLines t
  | stringLen => exact lockstep_withPlain hv (by decide) fun _ => lockstep_pure rfl
  | stringContains => exact lockstep_withPlain hv (by decide) fun _ => lockstep_pure rfl
  | stringToLower => exact lockstep_withPlain hv (by decide) fun _ => lockstep_pure rfl
  | stringWidth => exact lockstep_withPlain hv (by decide) fun _ => lockstep_pure rfl
  | stringTruncateToWidth =>
    exact lockstep_withPlain hv (by decide) fun (t, x, _) => lockstep_pure (like_truncated t x)
  | renderViewport =>
    exact lockstep_withPlain hv (by decide) fun (t, x, y, z, _) =>
      lockstep_pure (like_rendered t x y z)
  | floor => exact lockstep_withPlain hv (by decide) fun (x, _) => lockstep_pure (like_floored x)

end StandardFunction

/-! ## Requests -/

namespace Http

open Run

theorem lockstep_send (request : HttpRequest) :
    Lockstep b kinds (send request) (send request) fun _ reply reply' => reply' = reply := by
  refine lockstep_bind (lockstep_note _) fun more _ _ _ _ => lockstep_modifyGet fun w w' hw => ?_
  rw [hw.replies]
  cases w.replies with
  | nil => exact ⟨hw, rfl⟩
  | cons reply rest => exact ⟨{ hw with replies := rfl }, rfl⟩

theorem lockstep_giveUp (request : HttpRequest) (kind : HttpFailure) (message : Text) :
    Lockstep b kinds (exchange.giveUp request kind message)
      (exchange.giveUp request kind message) (Value.Like b) := by
  unfold exchange.giveUp
  split
  · exact lockstep_halt rfl
  · exact lockstep_pure rfl
  · exact lockstep_bind (lockstep_note _) fun _ _ _ _ _ => lockstep_pure rfl

theorem lockstep_conclude (platform : Platform) (request : HttpRequest) (r : HttpResponse) :
    Lockstep b kinds (exchange.conclude (valueOfResponse platform request r))
      (exchange.conclude (valueOfResponse platform request r)) (Value.Like b) := by
  cases h : valueOfResponse platform request r with
  | error cause => exact lockstep_halt rfl
  | ok v =>
    rcases valueOfResponse_cases h with ⟨t, rfl⟩ | ⟨message, rfl⟩
    · exact lockstep_pure rfl
    · exact lockstep_pure rfl

theorem lockstep_exchange (platform : Platform) (backoff : Float) (request : HttpRequest)
    (retries attempt : Nat) :
    Lockstep b kinds (exchange platform backoff request retries attempt)
      (exchange platform backoff request retries attempt) (Value.Like b) := by
  induction retries generalizing kinds attempt with
  | zero =>
    unfold exchange
    refine lockstep_bind (lockstep_send request) fun more _ reply reply' h => ?_
    subst h
    split
    · exact lockstep_conclude platform request _
    · exact lockstep_giveUp request _ _
  | succ retries ih =>
    unfold exchange
    refine lockstep_bind (lockstep_send request) fun more _ reply reply' h => ?_
    subst h
    split
    · exact lockstep_conclude platform request _
    · dsimp only
      split
      · split
        · exact lockstep_halt rfl
        · exact lockstep_bind (lockstep_note _) fun _ _ _ _ _ => ih (attempt + 1)
      · exact lockstep_giveUp request _ _

theorem lockstep_dispatch (platform : Platform) (settings : HttpSettings) (method url : Text)
    (headers : Dict Text) (body : Option Bytes) :
    Lockstep b kinds (dispatch platform settings method url headers body)
      (dispatch platform settings method url headers body) (Value.Like b) := by
  refine lockstep_bind (lockstep_note _) fun _ _ _ _ _ => ?_
  split
  · exact lockstep_halt rfl
  · refine lockstep_bind (lockstep_note _) fun _ _ _ _ _ => ?_
    split
    · exact lockstep_halt rfl
    · exact lockstep_exchange _ _ _ _ _

theorem lockstep_request (platform : Platform) (settings : HttpSettings) (method url : Text)
    (data : Option Text) (headers : Dict Text) :
    Lockstep b kinds (request platform settings method url data headers)
      (request platform settings method url data headers) (Value.Like b) := by
  rcases request_cases platform settings method url data headers with
    ⟨fault, h⟩ | ⟨headers', body, h⟩
  · rw [h]
    exact lockstep_halt rfl
  · rw [h]
    exact lockstep_dispatch _ _ _ _ _ _

theorem lockstep_call (setup : Setup) (f : HttpFunction) {values values' : List Value}
    (hv : List.Forall₂ (Value.Like b kinds) values values') :
    Lockstep b kinds (call setup f values) (call setup f values') (Value.Like b) := by
  cases f with
  | get => exact lockstep_withPlain hv (by decide) fun _ => lockstep_request _ _ _ _ _ _
  | post => exact lockstep_withPlain hv (by decide) fun _ => lockstep_request _ _ _ _ _ _
  | postWithToken => exact lockstep_withPlain hv (by decide) fun _ => lockstep_request _ _ _ _ _ _

end Http

/-! ## Hosts -/

namespace Host

open Run

theorem lockstep_convertResult (m : HostMethod) (result : Json) :
    Lockstep b kinds (convertResult m result) (convertResult m result) (Value.Like b) := by
  unfold convertResult
  split
  · exact lockstep_pure rfl
  · split
    · exact lockstep_pure rfl
    · exact lockstep_halt rfl
  · exact lockstep_pure rfl
  · exact lockstep_pure rfl
  · exact lockstep_pure rfl

theorem lockstep_conclusion (setup : Setup) (m : HostMethod) (link : Link) (answer : Answer) :
    Lockstep b kinds (conclusion setup m link answer) (conclusion setup m link answer)
      (Value.Like b) := by
  cases answer with
  | text t =>
    simp only [conclusion]
    split
    · next h hr =>
      obtain rfl : h = .tooDeep := by
        unfold readAnswer at hr
        split at hr
        · exact (Except.error.inj hr).symm
        · split at hr <;> simp at hr
      exact lockstep_halt rfl
    · exact lockstep_pure rfl
    · exact lockstep_convertResult m _
  | cancelled => exact lockstep_halt rfl
  | stopped => exact lockstep_halt rfl
  | silent =>
    simp only [conclusion]
    split
    · exact lockstep_halt rfl
    · split
      · exact lockstep_pure rfl
      · exact lockstep_halt rfl
  | unhashable reason => exact lockstep_halt rfl
  | tooDeep => exact lockstep_halt rfl

theorem lockstep_exchange (setup : Setup) (m : HostMethod) (link : Link) (parameters : List Json) :
    Lockstep b kinds (exchange setup m link parameters) (exchange setup m link parameters)
      (Value.Like b) := by
  refine lockstep_bind lockstep_get fun more _ w w' hw => ?_
  rw [hw.hostCalls]
  refine lockstep_bind (P := fun _ _ _ => True) (fun u u' hu => ?_) fun _ _ _ _ _ => ?_
  case refine_2 =>
    split
    · exact lockstep_conclusion setup m _ _
    · unfold unmeasured
      split <;> exact lockstep_halt rfl
  refine ⟨more, List.prefix_rfl, { hu with events := ?_, link := rfl }, trivial⟩
  change List.filter b.shows (u'.events ++ _).toList = List.filter b.shows (u.events ++ _).toList
  rw [Array.toList_append, Array.toList_append, List.filter_append, List.filter_append, hu.events]

theorem convertArgument_like (kind : ParameterKind) (position : Nat) {u v : Value}
    (hv : u.Like b kinds v) : convertArgument kind position v = convertArgument kind position u := by
  rcases hv.cases with rfl | ⟨c, d, rfl, rfl, hc⟩
  · rfl
  · cases kind with
    | function => simp only [convertArgument, Value.Like.function_name hc, Value.kindName]
    | _ => rfl

theorem convertFrom_like (position : Nat) (parameters : List ParameterKind)
    {values values' : List Value} (hv : List.Forall₂ (Value.Like b kinds) values values') :
    convertFrom position parameters values' = convertFrom position parameters values := by
  induction parameters generalizing position values values' with
  | nil => rfl
  | cons kind rest ih =>
    cases hv with
    | nil => rfl
    | cons hfirst hrest =>
      simp only [convertFrom, convertArgument_like kind position hfirst, ih (position + 1) hrest]

theorem convertArguments_like (m : HostMethod) {values values' : List Value}
    (hv : List.Forall₂ (Value.Like b kinds) values values') :
    convertArguments m values' = convertArguments m values := by
  simp only [convertArguments, hv.length_eq, convertFrom_like 1 m.kinds hv]

theorem lockstep_call (setup : Setup) (m : HostMethod) {values values' : List Value}
    (hv : List.Forall₂ (Value.Like b kinds) values values') :
    Lockstep b kinds (call setup m values) (call setup m values') (Value.Like b) := by
  simp only [call, convertArguments_like m hv]
  cases convertArguments m values with
  | error fault => exact lockstep_pure rfl
  | ok parameters =>
    refine lockstep_bind lockstep_get fun more _ w w' hw => ?_
    rw [hw.link]
    cases w.link with
    | none => exact lockstep_halt rfl
    | some link =>
      dsimp only
      split
      · exact lockstep_exchange setup m link parameters
      · exact lockstep_halt rfl

end Host

/-- Native functions go in lockstep. -/
theorem Run.lockstep_callNative (setup : Setup) (depth : Nat) (f : Native)
    {values values' : List Value} (hv : List.Forall₂ (Value.Like b kinds) values values') :
    Lockstep b kinds (callNative setup depth f values) (callNative setup depth f values')
      (Value.Like b) := by
  cases f with
  | standard f => exact f.lockstep_call { setup with depth } hv
  | http f => exact Http.lockstep_call setup f hv
  | host m => exact Host.lockstep_call setup m hv

end HostScript
