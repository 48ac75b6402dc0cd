import AccessPolicy.Construction.Stream
import AccessPolicy.Proofs.Except

namespace AccessPolicy

namespace Reading

theorem on_bind (x : Reading ε α) (f : α → Reading ε β) (input : ByteStream) :
    Reading.on (x >>= f) input =
      (x.on input).bind fun a => (f a).on (endState (x.run input)) := by
  simp only [Reading.on, EStateM.run, Bind.bind, EStateM.bind]
  cases x input <;> rfl

theorem on_ofExcept (x : Except ε α) (input : ByteStream) :
    Reading.on (ofExcept x : Reading ε α) input = x := by
  cases x <;> rfl

end Reading

namespace ByteStream

/-- A stream that has all the bytes asked for is not asked again. -/
theorem on_readUpTo_of_le {n : Nat} {s : ByteStream} (h : n ≤ s.bytes.length) :
    (readUpTo n).on s = .ok (s.bytes.take n) := by
  have htaken : ¬ (s.bytes.take n).length < n := by
    rw [List.length_take_of_le h]
    exact Nat.lt_irrefl n
  simp only [Reading.on, EStateM.run, readUpTo, if_neg htaken, answerOf]

/-- A stream that is too short is read to its end, and its failure is met. -/
theorem on_readUpTo_of_lt {n : Nat} {s : ByteStream} (h : s.bytes.length < n) :
    (readUpTo n).on s = match s.failure with
      | some e => .error e
      | none => .ok s.bytes := by
  have htaken : s.bytes.take n = s.bytes := List.take_of_length_le (Nat.le_of_lt h)
  simp only [Reading.on, EStateM.run, readUpTo, htaken, if_pos h]
  cases s.failure <;> rfl

theorem eq_take_of_readUpTo {n : Nat} {s : ByteStream} {bytes : List UInt8}
    (h : (readUpTo n).on s = .ok bytes) : bytes = s.bytes.take n := by
  obtain hlt | hle := Nat.lt_or_ge s.bytes.length n
  · rw [on_readUpTo_of_lt hlt] at h
    cases hfailure : s.failure <;> rw [hfailure] at h <;> cases h
    exact (List.take_of_length_le (Nat.le_of_lt hlt)).symm
  · exact (Except.ok.inj ((on_readUpTo_of_le hle).symm.trans h)).symm

/-- Whatever comes of it, what is taken is the front of the stream. -/
theorem endState_readUpTo (n : Nat) (s : ByteStream) :
    endState ((readUpTo n).run s) = { s with bytes := s.bytes.drop n } := by
  simp only [EStateM.run, readUpTo]
  split
  · cases s.failure <;> rfl
  · rfl

end ByteStream

section

variable {limit : UInt64} {s : ByteStream}

theorem le_probeLength (limit : UInt64) : limit.toNat ≤ probeLength limit := by
  have hlt := limit.toNat_lt_size
  simp only [probeLength]
  omega

theorem probeLength_le (limit : UInt64) : probeLength limit ≤ limit.toNat + 1 :=
  Nat.min_le_left _ _

theorem on_readBytes (limit : UInt64) (s : ByteStream) :
    (readBytes limit).on s = match (ByteStream.readUpTo (probeLength limit)).on s with
      | .error e => .error (.io e)
      | .ok bytes => if limit.toNat < bytes.length then .error (.tooLarge limit) else .ok bytes := by
  rw [readBytes, Reading.on_bind, Reading.on, EStateM.run, answerOf_adaptExcept, Reading.on,
    EStateM.run]
  cases answerOf (ByteStream.readUpTo (probeLength limit) s) with
  | error e => rfl
  | ok bytes =>
    simp only [Except.mapError, Except.bind]
    split <;> rfl

/-- Comparing the limit takes nothing more. -/
theorem endState_readBytes (limit : UInt64) (s : ByteStream) :
    endState ((readBytes limit).run s) = { s with bytes := s.bytes.drop (probeLength limit) } := by
  rw [← ByteStream.endState_readUpTo, EStateM.run, EStateM.run,
    ← endState_adaptExcept ConstructionError.io]
  simp only [readBytes, Bind.bind, EStateM.bind]
  cases (ByteStream.readUpTo (probeLength limit)).adaptExcept ConstructionError.io s with
  | error e rest => rfl
  | ok bytes rest =>
    dsimp only
    split <;> rfl

theorem readBytes_ofBytes {bytes : List UInt8} (h : bytes.length ≤ limit.toNat) :
    (readBytes limit).on (.ofBytes bytes) = .ok bytes := by
  have hread : (ByteStream.readUpTo (probeLength limit)).on (.ofBytes bytes) = .ok bytes := by
    obtain hlt | heq := Nat.lt_or_eq_of_le (Nat.le_trans h (le_probeLength limit))
    · exact ByteStream.on_readUpTo_of_lt (s := .ofBytes bytes) hlt
    · rw [ByteStream.on_readUpTo_of_le (s := .ofBytes bytes) (Nat.le_of_eq heq.symm), ← heq]
      exact congrArg Except.ok List.take_length
  simp only [on_readBytes, hread, if_neg (Nat.not_lt.2 h)]

/-- A stream of more bytes than the limit is refused before anything of it is looked at. -/
theorem readBytes_of_tooLarge (hlarge : limit.toNat < s.bytes.length)
    (hcount : limit.toNat + 1 < UInt64.size ∨ s.bytes.length < UInt64.size) :
    (readBytes limit).on s = .error (.tooLarge limit) := by
  have hprobe : probeLength limit = limit.toNat + 1 := by
    simp only [probeLength]
    omega
  have htaken : (s.bytes.take (limit.toNat + 1)).length = limit.toNat + 1 :=
    List.length_take_of_le hlarge
  simp only [on_readBytes, hprobe, ByteStream.on_readUpTo_of_le hlarge, htaken,
    if_pos (Nat.lt_succ_self _)]

/-- The limit is compared before a failure behind it can be met. -/
theorem readBytes_eq (hcount : s.bytes.length < UInt64.size - 1) :
    (readBytes limit).on s =
      if limit.toNat < s.bytes.length then .error (.tooLarge limit)
      else match s.failure with
        | some e => .error (.io e)
        | none => .ok s.bytes := by
  by_cases hlarge : limit.toNat < s.bytes.length
  · rw [readBytes_of_tooLarge hlarge (.inr (by omega)), if_pos hlarge]
  · have hshort : s.bytes.length < probeLength limit := by
      simp only [probeLength]
      omega
    rw [on_readBytes, ByteStream.on_readUpTo_of_lt hshort, if_neg hlarge]
    cases s.failure with
    | some e => rfl
    | none => simp only [if_neg hlarge]

theorem readBytes_eq_tooLarge_iff {l : UInt64} (hcount : s.bytes.length < UInt64.size - 1) :
    (readBytes limit).on s = .error (.tooLarge l) ↔
      l = limit ∧ limit.toNat + 1 ≤ s.bytes.length := by
  rw [readBytes_eq hcount]
  by_cases hlarge : limit.toNat < s.bytes.length
  · rw [if_pos hlarge]
    refine ⟨fun h => ⟨?_, hlarge⟩, fun h => by rw [h.1]⟩
    cases h
    rfl
  · rw [if_neg hlarge]
    refine iff_of_false (fun h => ?_) fun h => hlarge h.2
    cases hfailure : s.failure <;> rw [hfailure] at h <;> cases h

theorem readBytes_eq_io_iff {e : IoError} (hcount : s.bytes.length < UInt64.size - 1) :
    (readBytes limit).on s = .error (.io e) ↔ s.failure = some e ∧ s.bytes.length ≤ limit.toNat := by
  rw [readBytes_eq hcount]
  by_cases hlarge : limit.toNat < s.bytes.length
  · rw [if_pos hlarge]
    exact iff_of_false nofun fun h => Nat.not_le_of_lt hlarge h.2
  · rw [if_neg hlarge]
    cases s.failure with
    | none => exact iff_of_false nofun fun h => by cases h.1
    | some e' => simp [Nat.le_of_not_lt hlarge]

/-- What is read of a stream is its front. -/
theorem exists_bytes_of_readBytes {taken : List UInt8} (h : (readBytes limit).on s = .ok taken) :
    ∃ rest, s.bytes = taken ++ rest := by
  rw [on_readBytes] at h
  split at h
  · cases h
  · next bytes hread =>
    split at h
    · cases h
    · obtain rfl := Except.ok.inj h
      rw [ByteStream.eq_take_of_readUpTo hread]
      exact ⟨_, (List.take_append_drop _ _).symm⟩

/-- One byte more than the limit is all that matters of a stream, and of one that has fewer whether
it fails. -/
theorem readBytes_congr {t : ByteStream}
    (hbytes : t.bytes.take (limit.toNat + 1) = s.bytes.take (limit.toNat + 1))
    (hfailure : s.bytes.length ≤ limit.toNat → t.failure = s.failure) :
    (readBytes limit).on t = (readBytes limit).on s := by
  have hbound := probeLength_le limit
  have hprobe : t.bytes.take (probeLength limit) = s.bytes.take (probeLength limit) := by
    have htake := congrArg (List.take (probeLength limit)) hbytes
    rwa [List.take_take, List.take_take, Nat.min_eq_left hbound] at htake
  have hlength := congrArg List.length hprobe
  simp only [List.length_take] at hlength
  by_cases hshort : s.bytes.length < probeLength limit
  · have hshort' : t.bytes.length < probeLength limit := by omega
    have hsame : t.bytes = s.bytes := by
      rwa [List.take_of_length_le (Nat.le_of_lt hshort),
        List.take_of_length_le (Nat.le_of_lt hshort')] at hprobe
    rw [on_readBytes, on_readBytes, ByteStream.on_readUpTo_of_lt hshort,
      ByteStream.on_readUpTo_of_lt hshort', hfailure (by omega), hsame]
  · have hlong : probeLength limit ≤ s.bytes.length := Nat.le_of_not_lt hshort
    have hlong' : probeLength limit ≤ t.bytes.length := by omega
    rw [on_readBytes, on_readBytes, ByteStream.on_readUpTo_of_le hlong,
      ByteStream.on_readUpTo_of_le hlong', hprobe]

end

end AccessPolicy
