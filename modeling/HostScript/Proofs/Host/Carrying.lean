import HostScript.Config.Basic
import HostScript.Http.Charset
import HostScript.Proofs.Host.Serving

/-!
# What the wire keeps

The parameters of a call arrive at the handler as they were sent, and a text that the handler returns
arrives in the script, but for one thing: of a high surrogate and a low one directly behind it, the
code point is received that both stand for (`call_carries`). A text without such a pair is received
as it is (`Text.paired_eq_self_iff`).
-/

namespace HostScript

/-! ## Texts without pairs -/

/-- High surrogates. -/
def CodePoint.isHigh (c : CodePoint) : Bool := 0xD800 ≤ c.toNat && c.toNat < 0xDC00

namespace CodePoint

theorem isHigh_iff {c : CodePoint} :
    c.isHigh = true ↔ 0xD800 ≤ c.toNat ∧ c.toNat < 0xDC00 := by
  rw [isHigh, Bool.and_eq_true, decide_eq_true_iff, decide_eq_true_iff]

/-- What makes a pair is a high surrogate and a low one. -/
theorem pair?_eq_none_iff {a b : CodePoint} :
    a.pair? b = none ↔ ¬ (a.isHigh = true ∧ b.isLow = true) := by
  constructor
  · rintro h ⟨ha, hb⟩
    rw [Json.isLow_of_pair?_eq_none (isHigh_iff.mp ha) h] at hb
    exact nomatch hb
  · intro h
    cases a with
    | scalar x => rfl
    | surrogate i =>
      cases b with
      | scalar y => rfl
      | surrogate j =>
        have hj := j.isLt
        rw [pair?, if_neg]
        rintro ⟨hhigh, hlow⟩
        refine h ⟨isHigh_iff.mpr ?_, ?_⟩
        · simp only [toNat]
          omega
        · rw [← Bool.not_eq_false, isLow_eq_false_iff, not_not, toNat]
          omega

end CodePoint

namespace Text

/-- No high surrogate stands directly before a low one. -/
def Unpaired (t : Text) : Prop :=
  ∀ before a b after, t = before ++ a :: b :: after → ¬ (a.isHigh = true ∧ b.isLow = true)

variable {c d : CodePoint} {rest : Text}

theorem unpaired_cons_cons :
    Unpaired (c :: d :: rest) ↔ c.pair? d = none ∧ Unpaired (d :: rest) := by
  constructor
  · intro h
    refine ⟨CodePoint.pair?_eq_none_iff.mpr (h [] c d rest rfl), fun before a b after heq => ?_⟩
    exact h (c :: before) a b after (by rw [heq]; rfl)
  · rintro ⟨hpair, hrest⟩ before a b after heq
    cases before with
    | nil =>
      obtain ⟨rfl, rfl, rfl⟩ : c = a ∧ d = b ∧ rest = after := by simpa using heq
      exact CodePoint.pair?_eq_none_iff.mp hpair
    | cons first before =>
      obtain ⟨-, heq⟩ := List.cons.inj heq
      exact hrest before a b after heq

theorem length_paired_le (t : Text) : t.paired.length ≤ t.length := by
  fun_induction paired t with
  | case1 => exact Nat.le_refl _
  | case2 => exact Nat.le_refl _
  | case3 c d rest e he ih => simp; omega
  | case4 c d rest he ih => simpa using ih

/-- Just the texts without pairs are received as they are. -/
theorem paired_eq_self_iff (t : Text) : t.paired = t ↔ t.Unpaired := by
  fun_induction paired t with
  | case1 => exact iff_of_true rfl fun before a b after h => by simp at h
  | case2 c =>
    refine iff_of_true rfl fun before a b after h => ?_
    have hlength := congrArg List.length h
    simp only [List.length_append, List.length_cons, List.length_nil] at hlength
    omega
  | case3 c d rest e he ih =>
    rw [unpaired_cons_cons, he]
    refine iff_of_false (fun h => ?_) (by simp)
    have hle := length_paired_le rest
    have hlength := congrArg List.length h
    simp only [List.length_cons] at hlength
    omega
  | case4 c d rest he ih =>
    rw [unpaired_cons_cons, ← ih, List.cons.injEq]
    simp [he]

end Text

namespace Host

variable {kinds : List ParameterKind} {kind : ParameterKind} {v : Value} {values : List Value}
  {document : Json} {parameters : List Json} {m : HostMethod}

/-! ## Parameters -/

theorem ConveysOne.received_eq_iff (h : ConveysOne kind v document) :
    document.received = document ↔ ∀ t, document = .string t → t.Unpaired := by
  cases h with
  | buffer => exact iff_of_true rfl nofun
  | title t => simp [Json.received, Text.paired_eq_self_iff]
  | named hname => simp [Json.received, Text.paired_eq_self_iff]
  | text t => simp [Json.received, Text.paired_eq_self_iff]

/-- Parameters are received as they are unless a text among them has a pair of surrogates. -/
theorem Conveys.receivedItems_eq_iff (h : Conveys kinds values parameters) :
    Json.receivedItems parameters = parameters ↔ ∀ t, .string t ∈ parameters → t.Unpaired := by
  induction h with
  | nil => exact iff_of_true rfl fun t ht => absurd ht List.not_mem_nil
  | cons hone hrest ih =>
    rw [Json.receivedItems, List.cons.injEq, hone.received_eq_iff, ih]
    constructor
    · rintro ⟨hfirst, hothers⟩ t ht
      rcases List.mem_cons.mp ht with heq | ht
      · exact hfirst t heq.symm
      · exact hothers t ht
    · intro hall
      exact ⟨fun t heq => hall t (heq ▸ List.mem_cons_self),
        fun t ht => hall t (List.mem_cons_of_mem _ ht)⟩

theorem length_receivedItems (parameters : List Json) :
    (Json.receivedItems parameters).length = parameters.length := by
  induction parameters with
  | nil => rfl
  | cons document parameters ih => rw [Json.receivedItems, List.length_cons, List.length_cons, ih]

theorem getElem?_receivedItems (parameters : List Json) (i : ℕ) :
    (Json.receivedItems parameters)[i]? = parameters[i]?.map Json.received := by
  induction parameters generalizing i with
  | nil => rfl
  | cons document parameters ih =>
    cases i with
    | zero => rfl
    | succ i => simpa [Json.receivedItems] using ih i

/-! ## Calls -/

/-- What a call of a method carries to the handler and back. Its request is decoded as the method and
the parameters, each buffer number as it is and each text with its pairs of surrogates joined; so the
parameters are what was sent if and only if no text among them has such a pair. A handler is invoked
with them, and a text that it returns for a method with a text result is received likewise. -/
theorem call_carries {setup : Setup} (hsent : convertArguments m values = .ok parameters)
    (hdepth : 2 ≤ setup.depth) :
    (∃ document, Json.read .wire setup.depth (requestText m parameters) = .ok document ∧
      readRequest document = .ok (.string m.name, .array (Json.receivedItems parameters))) ∧
    (Json.receivedItems parameters).length = parameters.length ∧
    (∀ (i n : ℕ), parameters[i]? = some (.integer n) →
      (Json.receivedItems parameters)[i]? = some (.integer n)) ∧
    (∀ (i : ℕ) (t : Text), parameters[i]? = some (.string t) →
      (Json.receivedItems parameters)[i]? = some (.string t.paired)) ∧
    (Json.receivedItems parameters = parameters ↔ ∀ t, .string t ∈ parameters → t.Unpaired) ∧
    ∀ (w : World) (link : Link), w.link = some link → link.isOpen = true →
      isMeasurable link.timeout = true → link.host.offers m.name = true →
      World.hostCalls ((call setup m values).run w).2.events.toList =
        World.hostCalls w.events.toList ++ [⟨m.name, Json.receivedItems parameters⟩] ∧
      ∀ t : Text, m.signature.result = some .text →
        (link.host.respond (World.hostCalls w.events.toList)
          ⟨m.name, Json.receivedItems parameters⟩).outcome = .returns (.string t) →
        ((call setup m values).run w).1 = .ok (.string t.paired) ∧
          (t.paired = t ↔ t.Unpaired) := by
  have hconveys := convertArguments_eq_ok_iff.mp hsent
  refine ⟨⟨_, read_requestText hconveys hdepth, rfl⟩, ?_, fun i n hi => ?_, fun i t hi => ?_,
    hconveys.receivedItems_eq_iff, fun w link hlink hopen hmeasurable hoffers => ?_⟩
  · exact length_receivedItems parameters
  · rw [getElem?_receivedItems, hi]
    rfl
  · rw [getElem?_receivedItems, hi]
    rfl
  · rw [run_call_of_handled hconveys hdepth hlink hopen hmeasurable hoffers]
    refine ⟨?_, fun t hresult hreturns => ⟨?_, t.paired_eq_self_iff⟩⟩
    · simp only [delivered]
      rw [Array.toList_append, hostCalls_append, hostCalls_invoke]
    · rw [settled, hreturns]
      have hnesting : (Json.string t).nesting < setup.depth := by
        change 0 < setup.depth
        omega
      simp only [Json.hasLongInteger, Bool.false_eq_true, if_false, if_pos hnesting]
      unfold converted
      rw [hresult]
      rfl

/-- A host whose handlers all return one text. -/
def answering (t : Text) : Host :=
  ⟨fun _ => true, fun name => name, fun _ _ => ⟨[], false, .returns (.string t)⟩⟩

/-- A world that is linked to it. -/
def linkedTo (t : Text) : World := ⟨⟨#[]⟩, .empty, 0, #[], some ⟨answering t, true, .null⟩, []⟩

/-- A low surrogate before a high one is carried to the handler, and a text with one comes back. -/
theorem call_carries_turnedRound :
    World.hostCalls ((call ⟨1500, 10, true, Config.default.http, .usual⟩ .runAction
        [.string [.surrogate 0x600, .surrogate 0x3D]]).run
          (linkedTo [.surrogate 0x600])).2.events.toList =
      [⟨"run_action", [.string [.surrogate 0x600, .surrogate 0x3D]]⟩] ∧
    ((call ⟨1500, 10, true, Config.default.http, .usual⟩ .runAction
        [.string [.surrogate 0x600, .surrogate 0x3D]]).run (linkedTo [.surrogate 0x600])).1 =
      .ok (.string [.surrogate 0x600]) := by
  have hsent : convertArguments .runAction [.string [.surrogate 0x600, .surrogate 0x3D]] =
      .ok [.string [.surrogate 0x600, .surrogate 0x3D]] := rfl
  have hdepth : 2 ≤ (⟨1500, 10, true, Config.default.http, .usual⟩ : Setup).depth := by decide
  have h := call_carries hsent hdepth
  obtain ⟨hcalls, hresult⟩ := h.2.2.2.2.2 (linkedTo [.surrogate 0x600])
    ⟨answering [.surrogate 0x600], true, .null⟩ rfl rfl rfl rfl
  exact ⟨hcalls, (hresult [.surrogate 0x600] rfl rfl).1⟩

/-- A high surrogate and a low one behind it are decoded as the one code point that they stand for,
which is not what was sent. -/
theorem pair_arrives_joined :
    convertArguments .log [.string [.surrogate 0x3D, .surrogate 0x600]] =
      .ok [.string [.surrogate 0x3D, .surrogate 0x600]] ∧
    (∃ document, Json.read .wire 1500
        (requestText .log [.string [.surrogate 0x3D, .surrogate 0x600]]) = .ok document ∧
      readRequest document =
        .ok (.string "rlog", .array [.string [.scalar (Char.ofNat 0x1F600)]])) ∧
    [Json.string [.scalar (Char.ofNat 0x1F600)]] ≠
      [.string [.surrogate 0x3D, .surrogate 0x600]] := by
  have hconveys : Conveys HostMethod.log.kinds [.string [.surrogate 0x3D, .surrogate 0x600]]
      [.string [.surrogate 0x3D, .surrogate 0x600]] := .cons (.text _) .nil
  exact ⟨rfl, ⟨_, read_requestText hconveys (by decide), rfl⟩, by simp⟩

end Host

end HostScript
