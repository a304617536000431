/-
The header codec is exact up to the five unused bits of the flags byte: `decode_header` accepts a
byte string with a header exactly when clearing those bits gives the header's own encoding.
-/
import KeyboardProject.Proto.Encode
import KeyboardProject.Proto.Decode

namespace KeyboardProject.Wire

open Rust Rust.Outcome Proto

/-! ## The kind and flags bytes -/

theorem ofU8_eq_ok {b : UInt8} {kind : PacketKind} : PacketKind.ofU8 b = .ok kind ↔ b = kind.toU8 := by
  constructor
  · intro h
    unfold PacketKind.ofU8 at h
    split at h <;> simp only [ok.injEq, reduceCtorEq] at h <;> subst h <;> rfl
  · rintro rfl
    cases kind <;> rfl

theorem ofU8_ne_panic (b : UInt8) : PacketKind.ofU8 b ≠ .panic := by
  unfold PacketKind.ofU8
  split <;> simp

theorem flagsFromByte_toByte (flags : PacketFlags) : flagsFromByte (flagsToByte flags) = flags := by
  obtain ⟨e, a, r⟩ := flags
  cases e <;> cases a <;> cases r <;> rfl

theorem flagsToByte_fromByte (b : UInt8) : flagsToByte (flagsFromByte b) = b &&& 0x07 := by
  -- all 256 bytes
  have h : ∀ x : BitVec 8, flagsToByte (flagsFromByte ⟨x⟩) = (⟨x⟩ : UInt8) &&& 0x07 := by decide
  exact h b.toBitVec

/-- The decoder does not look at the five high bits of the flags byte. -/
theorem flagsFromByte_and (b : UInt8) : flagsFromByte (b &&& 0x07) = flagsFromByte b := by
  have h := flagsFromByte_toByte (flagsFromByte b)
  rwa [flagsToByte_fromByte] at h

/-! ## Clearing the unused bits -/

/-- A frame with the five unused high bits of the flags byte (index 9) cleared. -/
def clearUnusedFlags (b : List UInt8) : List UInt8 := b.modify 9 (· &&& 0x07)

@[simp] theorem length_clearUnusedFlags (b : List UInt8) : (clearUnusedFlags b).length = b.length := by
  simp [clearUnusedFlags]

@[simp] theorem clearUnusedFlags_clearUnusedFlags (b : List UInt8) :
    clearUnusedFlags (clearUnusedFlags b) = clearUnusedFlags b := by
  have h : ∀ x : UInt8, x &&& 0x07 &&& 0x07 = x &&& 0x07 := fun x => by rw [UInt8.and_assoc]; rfl
  unfold clearUnusedFlags
  rw [List.modify_modify_eq]
  congr 1
  funext x
  exact h x

theorem clearUnusedFlags_append {head : List UInt8} (h : head.length = headerLen) (rest : List UInt8) :
    clearUnusedFlags (head ++ rest) = clearUnusedFlags head ++ rest := by
  have h9 : 9 < head.length := by rw [h]; decide
  have h9' : 9 < (head ++ rest).length := by rw [List.length_append]; omega
  unfold clearUnusedFlags
  rw [List.modify_eq_take_cons_drop h9, List.modify_eq_take_cons_drop h9', List.getElem_append_left h9,
    List.take_append_of_le_length (by omega), List.drop_append_of_le_length (by omega), List.append_assoc,
    List.cons_append]

theorem clearUnusedFlags_parts (a c : Arr UInt8 4) (k f : UInt8) :
    clearUnusedFlags (a.1 ++ c.1 ++ [k, f]) = a.1 ++ c.1 ++ [k, f &&& 0x07] := by
  match a, c with
  | ⟨[a0, a1, a2, a3], _⟩, ⟨[c0, c1, c2, c3], _⟩ => rfl

/-- The encoder leaves the unused bits clear. -/
@[simp] theorem clearUnusedFlags_encodeHeader (header : PacketHeader) :
    clearUnusedFlags (encodeHeader header).1 = (encodeHeader header).1 := by
  unfold encodeHeader
  rw [clearUnusedFlags_parts, ← flagsToByte_fromByte, flagsFromByte_toByte]

/-! ## The header codec -/

/-- A byte string of header length, cut at the fields. -/
theorem header_parts {b : List UInt8} (h : b.length = headerLen) :
    ∃ (a c : Arr UInt8 4) (k f : UInt8), b = a.1 ++ c.1 ++ [k, f] := by
  match b, h with
  | [b0, b1, b2, b3, b4, b5, b6, b7, k, f], _ => exact ⟨⟨[b0, b1, b2, b3], rfl⟩, ⟨[b4, b5, b6, b7], rfl⟩, k, f, rfl⟩

theorem decodeHeader_parts (a c : Arr UInt8 4) (k f : UInt8) :
    decodeHeader (a.1 ++ c.1 ++ [k, f]) = (do
      let kind ← PacketKind.ofU8 k
      pure { sessionId := u32FromLeBytes a, counter := u32FromLeBytes c, kind, flags := flagsFromByte f }) := by
  match a, c with
  | ⟨[a0, a1, a2, a3], _⟩, ⟨[c0, c1, c2, c3], _⟩ => rfl

theorem decodeHeader_of_length_ne {b : List UInt8} (h : b.length ≠ headerLen) :
    decodeHeader b = .err .unexpectedLength := by
  unfold decodeHeader
  rw [rejectIf_pos h, err_bind]

/-- `decode_header` reads exactly the byte strings that are a header's encoding once the unused bits
are cleared, and reads each as that header. -/
theorem decodeHeader_eq_ok {b : List UInt8} {header : PacketHeader} :
    decodeHeader b = .ok header ↔ b.length = headerLen ∧ (encodeHeader header).1 = clearUnusedFlags b := by
  by_cases hlen : b.length = headerLen
  swap
  · simp [decodeHeader_of_length_ne hlen, hlen]
  obtain ⟨a, c, k, f, rfl⟩ := header_parts hlen
  rw [decodeHeader_parts, clearUnusedFlags_parts, and_iff_right hlen, bind_eq_ok]
  simp only [ofU8_eq_ok, pure_eq, ok.injEq]
  constructor
  · rintro ⟨kind, rfl, rfl⟩
    simp [encodeHeader, flagsToByte_fromByte]
  · intro h
    obtain ⟨h8, htail⟩ := List.append_inj h (by simp [(u32ToLeBytes _).2, a.2, c.2])
    obtain ⟨ha, hc⟩ := List.append_inj h8 (by rw [(u32ToLeBytes _).2, a.2])
    obtain ⟨hk, hf⟩ : header.kind.toU8 = k ∧ flagsToByte header.flags = f &&& 0x07 := by simpa using htail
    refine ⟨header.kind, hk.symm, ?_⟩
    rw [← Subtype.ext ha, ← Subtype.ext hc, u32FromLeBytes_toLeBytes, u32FromLeBytes_toLeBytes,
      ← flagsFromByte_and, ← hf, flagsFromByte_toByte]

theorem decodeHeader_ne_panic (b : List UInt8) : decodeHeader b ≠ .panic := by
  by_cases hlen : b.length = headerLen
  · obtain ⟨a, c, k, f, rfl⟩ := header_parts hlen
    rw [decodeHeader_parts]
    simp [bind_eq_panic, ofU8_ne_panic]
  · simp [decodeHeader_of_length_ne hlen]

theorem decodeHeader_clearUnusedFlags {b : List UInt8} {header : PacketHeader} :
    decodeHeader (clearUnusedFlags b) = .ok header ↔ decodeHeader b = .ok header := by
  simp [decodeHeader_eq_ok]

@[simp] theorem decodeHeader_encodeHeader (header : PacketHeader) : decodeHeader (encodeHeader header).1 = .ok header :=
  decodeHeader_eq_ok.2 ⟨(encodeHeader header).2, (clearUnusedFlags_encodeHeader header).symm⟩

theorem encodeHeader_inj {h h' : PacketHeader} (heq : encodeHeader h = encodeHeader h') : h = h' := by
  have hd := decodeHeader_encodeHeader h
  rw [heq, decodeHeader_encodeHeader] at hd
  exact (ok.inj hd).symm

/-- The associated data tells two packets apart by any header field, and by the payload length up to
the `u16` cast. -/
theorem associatedData_inj {h h' : PacketHeader} {n n' : Nat} (heq : associatedData h n = associatedData h' n') :
    h = h' ∧ n % 256 ^ 2 = n' % 256 ^ 2 := by
  obtain ⟨hh, hn⟩ := List.append_inj (congrArg Subtype.val heq) (by rw [(encodeHeader h).2, (encodeHeader h').2])
  rw [u16ToLeBytes_ofNat, u16ToLeBytes_ofNat] at hn
  have hv := congrArg LittleEndian.value hn
  rw [LittleEndian.value_encode, LittleEndian.value_encode] at hv
  exact ⟨encodeHeader_inj (Subtype.ext hh), hv⟩

end KeyboardProject.Wire
