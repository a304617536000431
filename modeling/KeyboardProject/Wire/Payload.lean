/-
The payload codec: `decode_payload` reads exactly the encodings of the payloads its kind stands for,
and whether it succeeds depends on the kind and the length alone. The handshake's two shapes are
told apart by length.
-/
import KeyboardProject.Proto.Encode
import KeyboardProject.Proto.Decode
import KeyboardProject.Proto.Validate

namespace KeyboardProject.Wire

open Rust Rust.Outcome Proto

/-! ## Lengths -/

/-- The size table of `payload_len` is the encoder's. -/
theorem length_encodePayload (payload : Payload) : (encodePayload payload).length = payloadLen payload := by
  cases payload with
  | handshakeInit key nonce => simp [encodePayload, payloadLen, key.2, nonce.2]
  | handshakeAccept s => exact (u32ToLeBytes s).2
  | control code data => simp [encodePayload, payloadLen, Nat.add_comm]
  | keyReport keys => rfl
  | ack c => exact (u32ToLeBytes c).2
  | keepAlive => rfl

/-- The payload lengths that decode under a kind. -/
def PayloadLength : PacketKind → Nat → Prop
  | .handshake, n => n = keyBytes + nonceBytes ∨ n = 4
  | .control, n => n ≠ 0
  | .keyReport, _ => True
  | .ack, n => n = 4
  | .keepAlive, n => n = 0

instance : ∀ (kind : PacketKind) (n : Nat), Decidable (PayloadLength kind n)
  | .handshake, n => inferInstanceAs (Decidable (n = keyBytes + nonceBytes ∨ n = 4))
  | .control, n => inferInstanceAs (Decidable (n ≠ 0))
  | .keyReport, _ => inferInstanceAs (Decidable True)
  | .ack, n => inferInstanceAs (Decidable (n = 4))
  | .keepAlive, n => inferInstanceAs (Decidable (n = 0))

theorem payloadLength_of_matches : ∀ {kind : PacketKind} {payload : Payload},
    matchesValidKindPayload kind payload = true → PayloadLength kind (payloadLen payload)
  | .handshake, .handshakeInit .., _ => Or.inl rfl
  | .handshake, .handshakeAccept .., _ => Or.inr rfl
  | .control, .control _ data, _ => by show 1 + data.length ≠ 0; omega
  | .keyReport, .keyReport _, _ => trivial
  | .ack, .ack _, _ => rfl
  | .keepAlive, .keepAlive, _ => rfl

/-! ## Decoding -/

theorem decodePayload_ok {kind : PacketKind} {w : List UInt8} (h : PayloadLength kind w.length) :
    ∃ payload, decodePayload kind w = .ok payload ∧ matchesValidKindPayload kind payload = true ∧
      encodePayload payload = w := by
  cases kind with
  | handshake =>
    rcases h with h | h
    · -- 56 bytes: a key and a nonce
      have hk : (w.take keyBytes).length = keyBytes := by rw [List.length_take]; omega
      have hn : (w.drop keyBytes).length = nonceBytes := by rw [List.length_drop]; omega
      refine ⟨.handshakeInit ⟨_, hk⟩ ⟨_, hn⟩, ?_, rfl, List.take_append_drop ..⟩
      show (if _ then _ else _) = _
      rw [if_pos h, sliceTo_ok (by omega), sliceFrom_ok (by omega), ok_bind, intoArr_ok hk, ok_bind, ok_bind,
        intoArr_ok hn]
      rfl
    · -- 4 bytes: an accept
      refine ⟨.handshakeAccept (u32FromLeBytes ⟨w, h⟩), ?_, rfl, by simp [encodePayload]⟩
      have h56 : w.length ≠ keyBytes + nonceBytes := by rw [h]; decide
      show (if _ then _ else if _ then _ else _) = _
      rw [if_neg h56, if_pos h, intoArr_ok h]
      rfl
  | control =>
    cases w with
    | nil => exact absurd rfl h
    | cons code data =>
      refine ⟨.control code data, ?_, rfl, rfl⟩
      have hdrop : (sliceFrom (code :: data) 1 : Outcome ParseError _) = .ok data := sliceFrom_ok (by simp)
      simp only [decodePayload, rejectIf_neg (List.cons_ne_nil _ _), ok_bind, hdrop]
      rfl
  | keyReport => exact ⟨.keyReport w, rfl, rfl, rfl⟩
  | ack =>
    refine ⟨.ack (u32FromLeBytes ⟨w, h⟩), ?_, rfl, by simp [encodePayload]⟩
    have hlen : w.length = 4 := h
    simp only [decodePayload, rejectIf_neg (not_not.2 hlen), ok_bind, intoArr_ok hlen]
    rfl
  | keepAlive =>
    obtain rfl : w = [] := List.eq_nil_of_length_eq_zero h
    exact ⟨.keepAlive, rfl, rfl, rfl⟩

theorem decodePayload_err {kind : PacketKind} {w : List UInt8} (h : ¬PayloadLength kind w.length) :
    decodePayload kind w = .err .unexpectedLength := by
  cases kind with
  | handshake =>
    obtain ⟨h56, h4⟩ := not_or.1 h
    show (if _ then _ else if _ then _ else _) = _
    rw [if_neg h56, if_neg h4]
  | control =>
    obtain rfl : w = [] := List.eq_nil_of_length_eq_zero (not_not.1 h)
    rfl
  | keyReport => exact absurd trivial h
  | ack =>
    have hlen : w.length ≠ 4 := h
    simp only [decodePayload, rejectIf_pos hlen, err_bind]
  | keepAlive =>
    have hne : w ≠ [] := fun hw => h (by rw [hw]; rfl)
    simp only [decodePayload, rejectIf_pos hne, err_bind]

theorem decodePayload_ne_panic (kind : PacketKind) (w : List UInt8) : decodePayload kind w ≠ .panic := by
  by_cases h : PayloadLength kind w.length
  · obtain ⟨payload, hp, -⟩ := decodePayload_ok h
    rw [hp]; simp
  · rw [decodePayload_err h]; simp

/-! ## One payload an encoding -/

/-- Under one kind, no two payloads have the same encoding. -/
theorem encodePayload_inj {kind : PacketKind} {p q : Payload} (hp : matchesValidKindPayload kind p = true)
    (hq : matchesValidKindPayload kind q = true) (h : encodePayload p = encodePayload q) : p = q := by
  have hlen : payloadLen p = payloadLen q := by rw [← length_encodePayload, ← length_encodePayload, h]
  cases p with
  | handshakeInit key nonce =>
    cases kind <;> cases q <;> try contradiction
    case handshakeInit key' nonce' =>
      obtain ⟨hk, hn⟩ := List.append_inj h (by rw [key.2, key'.2])
      rw [Subtype.ext hk, Subtype.ext hn]
    case handshakeAccept => simp [payloadLen, keyBytes, nonceBytes] at hlen
  | handshakeAccept s =>
    cases kind <;> cases q <;> try contradiction
    case handshakeInit => simp [payloadLen, keyBytes, nonceBytes] at hlen
    case handshakeAccept => rw [u32ToLeBytes_inj (Subtype.ext h)]
  | control code data =>
    cases kind <;> cases q <;> try contradiction
    obtain ⟨rfl, rfl⟩ := List.cons.inj h
    rfl
  | keyReport keys =>
    cases kind <;> cases q <;> try contradiction
    exact congrArg _ h
  | ack c =>
    cases kind <;> cases q <;> try contradiction
    rw [u32ToLeBytes_inj (Subtype.ext h)]
  | keepAlive =>
    cases kind <;> cases q <;> try contradiction
    rfl

/-- `decode_payload` inverts `encode_payload` on the payloads of its kind, and reads nothing else. -/
theorem decodePayload_eq_ok {kind : PacketKind} {w : List UInt8} {payload : Payload} :
    decodePayload kind w = .ok payload ↔
      matchesValidKindPayload kind payload = true ∧ encodePayload payload = w := by
  constructor
  · intro h
    by_cases hlen : PayloadLength kind w.length
    · obtain ⟨p, hp, hm, he⟩ := decodePayload_ok hlen
      obtain rfl : p = payload := ok.inj (hp.symm.trans h)
      exact ⟨hm, he⟩
    · rw [decodePayload_err hlen] at h
      contradiction
  · rintro ⟨hm, rfl⟩
    have hlen : PayloadLength kind (encodePayload payload).length := by
      rw [length_encodePayload]; exact payloadLength_of_matches hm
    obtain ⟨p, hp, hm', he⟩ := decodePayload_ok hlen
    rw [hp, encodePayload_inj hm' hm he]

/-- Whether a payload decodes depends on its kind and its length alone. -/
theorem decodePayload_isOk {kind : PacketKind} {w : List UInt8} :
    (∃ payload, decodePayload kind w = .ok payload) ↔ PayloadLength kind w.length := by
  constructor
  · rintro ⟨payload, h⟩
    by_contra hlen
    rw [decodePayload_err hlen] at h
    contradiction
  · intro h
    obtain ⟨payload, hp, -⟩ := decodePayload_ok h
    exact ⟨payload, hp⟩

end KeyboardProject.Wire
