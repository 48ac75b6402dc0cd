import AccessPolicy.Artifact
import AccessPolicy.Proofs.Except
import AccessPolicy.Proofs.Grammar.Completeness
import AccessPolicy.Proofs.Journal

namespace AccessPolicy

/-- A call of a sink, with what the sink answered. -/
inductive SinkCall where
  | write (offered : List UInt8) (answer : Except IoError Nat)
  | flush (answer : Except IoError Unit)

namespace SinkCall

def IsWrite : SinkCall → Prop
  | write _ _ => True
  | flush _ => False

/-- The bytes that the sink took. One that says it took more than it was offered took all of it. -/
def taken : SinkCall → List UInt8
  | write offered (.ok n) => offered.take n
  | _ => []

/-- The failure that the call is. A write that takes nothing is one. -/
def failure? : SinkCall → Option IoError
  | write _ (.error e) => some e
  | write _ (.ok 0) => some .writeZero
  | write _ (.ok (_ + 1)) => none
  | flush (.error e) => some e
  | flush (.ok ()) => none

theorem taken_of_failure {c : SinkCall} {e : IoError} (h : c.failure? = some e) : c.taken = [] := by
  cases c with
  | write offered answer =>
    cases answer with
    | error e => rfl
    | ok n =>
      cases n with
      | zero => rfl
      | succ n => cases h
  | flush answer => rfl

end SinkCall

def takenBy (calls : List SinkCall) : List UInt8 :=
  calls.flatMap SinkCall.taken

theorem takenBy_cons (c : SinkCall) (calls : List SinkCall) :
    takenBy (c :: calls) = c.taken ++ takenBy calls := rfl

/-- A flush takes no bytes. -/
theorem takenBy_concat_flush (calls : List SinkCall) (answer : Except IoError Unit) :
    takenBy (calls ++ [.flush answer]) = takenBy calls := by
  rw [takenBy, List.flatMap_append]
  exact List.append_nil _

/-- The sink took all the bytes, and after them it was flushed once, with success. -/
def Completes (bytes : List UInt8) (calls : List SinkCall) : Prop :=
  ∃ writes, calls = writes ++ [.flush (.ok ())] ∧ (∀ c ∈ writes, c.IsWrite) ∧
    takenBy writes = bytes

namespace Sink

variable {σ : Type}

/-- The sink that notes each of its calls. -/
def noted (sink : Sink σ) : Sink (Journal SinkCall σ) where
  write bytes := Journal.noting (.write bytes) (sink.write bytes)
  flush := Journal.noting .flush sink.flush

/-- What the calls amount to by which a sink was offered `bytes` until it had taken them or failed:
it took them from the front, and all of them exactly if it did not fail. -/
structure Wrote (bytes : List UInt8) (answer : Except IoError Unit) (calls : List SinkCall) :
    Prop where
  writes : ∀ c ∈ calls, c.IsWrite
  front : takenBy calls <+: bytes
  all_iff : answer = .ok () ↔ takenBy calls = bytes
  fails_iff : ∀ e, answer = .error e ↔ ∃ c ∈ calls, c.failure? = some e

theorem wrote_nil : Wrote [] (.ok ()) [] where
  writes := List.forall_mem_nil _
  front := List.nil_prefix
  all_iff := iff_of_true rfl rfl
  fails_iff _ := iff_of_false nofun (by simp)

/-- A write that fails is the last one. -/
theorem wrote_of_failure {bytes : List UInt8} {c : SinkCall} {e : IoError} (hne : bytes ≠ [])
    (hwrite : c.IsWrite) (hfailure : c.failure? = some e) : Wrote bytes (.error e) [c] := by
  have hnothing : takenBy [c] = [] := by rw [takenBy_cons, c.taken_of_failure hfailure]; rfl
  refine ⟨List.forall_mem_singleton.2 hwrite, ?_, ?_, fun f => ?_⟩
  · rw [hnothing]
    exact List.nil_prefix
  · rw [hnothing]
    exact iff_of_false nofun hne.symm
  · simp [hfailure]

theorem Wrote.cons {bytes : List UInt8} {n : Nat} {answer : Except IoError Unit}
    {calls : List SinkCall} (h : Wrote (bytes.drop (n + 1)) answer calls) :
    Wrote bytes answer (.write bytes (.ok (n + 1)) :: calls) := by
  have hsplit : bytes.take (n + 1) ++ bytes.drop (n + 1) = bytes := List.take_append_drop _ bytes
  have htaken : takenBy (.write bytes (.ok (n + 1)) :: calls) =
      bytes.take (n + 1) ++ takenBy calls := rfl
  refine ⟨List.forall_mem_cons.2 ⟨trivial, h.writes⟩, ?_, ?_, fun e => ?_⟩
  · calc takenBy (.write bytes (.ok (n + 1)) :: calls)
      _ <+: bytes.take (n + 1) ++ bytes.drop (n + 1) := (List.prefix_append_right_inj _).2 h.front
      _ = bytes := hsplit
  · calc answer = .ok ()
      _ ↔ takenBy calls = bytes.drop (n + 1) := h.all_iff
      _ ↔ bytes.take (n + 1) ++ takenBy calls = bytes.take (n + 1) ++ bytes.drop (n + 1) :=
        (List.append_cancel_left_eq _ _ _).symm.to_iff
      _ ↔ takenBy (.write bytes (.ok (n + 1)) :: calls) = bytes := by rw [htaken, hsplit]
  · simp [h.fails_iff, SinkCall.failure?]

/-- The induction is on the bytes that the sink has not taken yet. -/
theorem exists_calls_of_writeAll (sink : Sink σ) (bytes : List UInt8) (earlier : List SinkCall)
    (s : σ) :
    ∃ calls, sink.noted.writeAll bytes ⟨earlier, s⟩ =
        mapEnd (Journal.mk (earlier ++ calls)) (sink.writeAll bytes s) ∧
      Wrote bytes (answerOf (sink.writeAll bytes s)) calls := by
  fun_induction writeAll sink bytes s generalizing earlier with
  | case1 s =>
    refine ⟨[], ?_, wrote_nil⟩
    rw [List.append_nil, writeAll]
    rfl
  | case2 bytes s hne e t hwrite =>
    refine ⟨[.write bytes (.error e)], ?_, wrote_of_failure hne trivial rfl⟩
    rw [writeAll, dif_neg hne]
    simp [noted, Journal.noting, hwrite, mapEnd, answerOf]
  | case3 bytes s hne t hwrite =>
    refine ⟨[.write bytes (.ok 0)], ?_, wrote_of_failure hne trivial rfl⟩
    rw [writeAll, dif_neg hne]
    simp [noted, Journal.noting, hwrite, mapEnd, answerOf]
  | case4 bytes s hne n t hwrite ih =>
    obtain ⟨calls, hrun, hwrote⟩ := ih (earlier ++ [.write bytes (.ok (n + 1))])
    refine ⟨.write bytes (.ok (n + 1)) :: calls, ?_, hwrote.cons⟩
    rw [writeAll, dif_neg hne]
    simp only [noted, Journal.noting, hwrite, mapEnd, answerOf] at hrun ⊢
    rw [hrun]
    simp

/-- What the calls amount to by which a sink was to be given `bytes`: it took them from the front,
and they were delivered completely exactly if no call failed. -/
structure Delivers (bytes : List UInt8) (answer : Except IoError Unit) (calls : List SinkCall) :
    Prop where
  front : takenBy calls <+: bytes
  completes_iff : answer = .ok () ↔ Completes bytes calls
  fails_iff : ∀ e, answer = .error e ↔ ∃ c ∈ calls, c.failure? = some e

/-- Where a write fails there is no flush. -/
theorem Wrote.delivers_of_error {bytes : List UInt8} {e : IoError} {calls : List SinkCall}
    (h : Wrote bytes (.error e) calls) : Delivers bytes (.error e) calls := by
  refine ⟨h.front, iff_of_false nofun ?_, h.fails_iff⟩
  rintro ⟨writes, rfl, -⟩
  exact h.writes (.flush (.ok ())) (List.mem_append_right _ List.mem_cons_self)

theorem Wrote.delivers_of_flush {bytes : List UInt8} {calls : List SinkCall}
    (h : Wrote bytes (.ok ()) calls) (answer : Except IoError Unit) :
    Delivers bytes answer (calls ++ [.flush answer]) := by
  have hall : takenBy calls = bytes := h.all_iff.1 rfl
  have hfine : ¬∃ c ∈ calls, ∃ e, c.failure? = some e :=
    fun ⟨c, hc, e, he⟩ => by cases (h.fails_iff e).2 ⟨c, hc, he⟩
  refine ⟨?_, ⟨?_, ?_⟩, fun e => ?_⟩
  · rw [takenBy_concat_flush]
    exact h.front
  · rintro rfl
    exact ⟨calls, rfl, h.writes, hall⟩
  · rintro ⟨writes, hcalls, -⟩
    have hlast := (List.append_inj' hcalls rfl).2
    exact SinkCall.flush.inj (List.singleton_inj.1 hlast)
  · constructor
    · rintro rfl
      exact ⟨.flush (.error e), List.mem_append_right _ List.mem_cons_self, rfl⟩
    · rintro ⟨c, hc, hfailure⟩
      obtain hc | hc := List.mem_append.1 hc
      · exact absurd ⟨c, hc, e, hfailure⟩ hfine
      · obtain rfl := List.mem_singleton.1 hc
        cases answer with
        | error f => rw [Option.some.inj hfailure]
        | ok u => cases hfailure

theorem exists_calls_of_deliver (sink : Sink σ) (bytes : List UInt8) (s : σ) :
    ∃ calls, sink.noted.deliver bytes ⟨[], s⟩ = mapEnd (Journal.mk calls) (sink.deliver bytes s) ∧
      Delivers bytes (answerOf (sink.deliver bytes s)) calls := by
  obtain ⟨calls, hrun, hwrote⟩ := sink.exists_calls_of_writeAll bytes [] s
  rw [List.nil_append] at hrun
  unfold deliver
  simp only [bind, EStateM.bind]
  cases hwritten : sink.writeAll bytes s with
  | error e t =>
    rw [hwritten] at hrun hwrote
    refine ⟨calls, ?_, hwrote.delivers_of_error⟩
    rw [hrun]
    rfl
  | ok u t =>
    rw [hwritten] at hrun hwrote
    refine ⟨calls ++ [.flush (answerOf (sink.flush t))], ?_, hwrote.delivers_of_flush _⟩
    rw [hrun]
    rfl

end Sink

/-- The element or one inside it lacks something that it must have. -/
def Node.Incomplete (n : Node) : Prop :=
  ∃ (m : Node) (d : Defect), m.OccursIn n ∧ m.Lacks d

theorem Node.incomplete_iff {n : Node} : n.Incomplete ↔ ∃ e, n.marshal = .error e := by
  constructor
  · rintro ⟨m, d, hoccurs, hlacks⟩
    cases hmarshal : n.marshal with
    | error e => exact ⟨e, rfl⟩
    | ok bytes =>
      have hpart := hoccurs.defects_eq_nil (exists_marshal_eq_ok_iff.1 ⟨bytes, hmarshal⟩)
      have hmem := mem_defects_of_lacks hlacks
      rw [hpart] at hmem
      cases hmem
  · rintro ⟨e, hmarshal⟩
    cases hdefects : n.defects with
    | nil =>
      obtain ⟨bytes, hbytes⟩ := exists_marshal_eq_ok_iff.2 hdefects
      rw [hmarshal] at hbytes
      cases hbytes
    | cons d rest =>
      obtain ⟨m, hm⟩ := exists_lacks_of_mem_defects n (hdefects ▸ List.mem_cons_self)
      exact ⟨m, d, hm⟩

/-- An element in a form that can be marshalled: by itself, under its name, or as the root of a
document or of an artifact. -/
inductive Writable (R X : Type) where
  | node (n : Node)
  | element (e : QualifiedElement)
  | document (d : PolicyDocument)
  | artifact (a : Artifact R X)

namespace Writable

variable {R X σ : Type}

/-- The element, whatever its form. -/
def root : Writable R X → Node
  | node n => n
  | element e => e.node
  | document d => d.toNode
  | artifact a => a.document.toNode

def marshal : Writable R X → Except MarshalError (List UInt8)
  | node n => n.marshal
  | element e => e.marshal
  | document d => d.marshal
  | artifact a => a.marshal

def marshalTo (w : Writable R X) (sink : Sink σ) : EStateM MarshalError σ Unit :=
  match w with
  | node n => n.marshalTo sink
  | element e => e.marshalTo sink
  | document d => d.marshalTo sink
  | artifact a => a.marshalTo sink

theorem marshal_eq (w : Writable R X) : w.marshal = w.root.marshal := by
  cases w with
  | node n => rfl
  | element e => rfl
  | document d => exact d.marshal_toNode.symm
  | artifact a => exact a.document.marshal_toNode.symm

theorem marshalTo_eq (w : Writable R X) (sink : Sink σ) :
    w.marshalTo sink = w.root.marshalTo sink := by
  cases w with
  | node n => rfl
  | element e => rfl
  | document d => exact (d.marshalTo_toNode sink).symm
  | artifact a => exact (a.document.marshalTo_toNode sink).symm

/-- Nothing is written before everything is checked. An element that is not complete is refused with
the error of marshalling, and the sink receives no call. Of one that is complete the sink takes
bytes from the front only; writing succeeds exactly if the sink takes them all and is then flushed
once, with success, and it fails exactly with the failure of a call. What form the element is in has
no influence on what is written. -/
theorem marshalTo_checks_first (w : Writable R X) (sink : Sink σ) (s : σ) :
    (∃ calls, w.marshalTo sink.noted ⟨[], s⟩ = mapEnd (Journal.mk calls) (w.marshalTo sink s) ∧
      (w.root.Incomplete →
        calls = [] ∧ ∃ e, w.marshal = .error e ∧ w.marshalTo sink s = .error e s) ∧
      (¬w.root.Incomplete → ∃ bytes, w.marshal = .ok bytes ∧ takenBy calls <+: bytes ∧
        (answerOf (w.marshalTo sink s) = .ok () ↔ Completes bytes calls) ∧
        ∀ e, answerOf (w.marshalTo sink s) = .error e ↔
          ∃ c ∈ calls, ∃ i, c.failure? = some i ∧ e = .io i)) ∧
    ∀ v : Writable R X, v.root = w.root →
      v.marshal = w.marshal ∧ v.marshalTo sink s = w.marshalTo sink s := by
  refine ⟨?_, fun v hroot => ?_⟩
  · rw [marshal_eq]
    simp only [marshalTo_eq, Node.marshalTo, Sink.accept]
    cases hmarshal : w.root.marshal with
    | error e =>
      have hincomplete := Node.incomplete_iff.2 ⟨e, hmarshal⟩
      exact ⟨[], rfl, fun _ => ⟨rfl, e, rfl, rfl⟩, absurd hincomplete⟩
    | ok bytes =>
      have hcomplete : ¬w.root.Incomplete := by
        rw [Node.incomplete_iff, hmarshal]
        simp
      obtain ⟨calls, hrun, hdelivers⟩ := sink.exists_calls_of_deliver bytes s
      obtain ⟨hfront, hcompletes, hfails⟩ := hdelivers
      refine ⟨calls, adaptExcept_mapEnd hrun, fun h => absurd h hcomplete, fun _ =>
        ⟨bytes, rfl, hfront, ?_, fun e => ?_⟩⟩
      · rw [answerOf_adaptExcept, mapError_eq_ok_iff, hcompletes]
      · rw [answerOf_adaptExcept, mapError_eq_error_iff]
        constructor
        · rintro ⟨i, hi, rfl⟩
          obtain ⟨c, hc, hfailure⟩ := (hfails i).1 hi
          exact ⟨c, hc, i, hfailure, rfl⟩
        · rintro ⟨c, hc, i, hfailure, rfl⟩
          exact ⟨i, (hfails i).2 ⟨c, hc, hfailure⟩, rfl⟩
  · rw [marshal_eq, marshal_eq w, marshalTo_eq, marshalTo_eq w, hroot]
    exact ⟨rfl, rfl⟩

end Writable

end AccessPolicy
