/-
Which error a byte string gets. `parse_framed` blames a length, the tag's length or the kind byte by conditions on
the byte string that exclude each other; `open_framed` looks at the kind byte before the lengths, and asks the
AEAD about nothing that is not a whole frame.
-/
import KeyboardProject.Wire.Sealing

namespace KeyboardProject.Wire

open Rust Rust.Outcome Proto

variable {b : List UInt8} {cfg : ProtocolConfig}

/-! ## What can be wrong -/

/-- Where the payload's end is announced. -/
def announcedEnd (cfg : ProtocolConfig) (b : List UInt8) : Nat := headerLen + 2 + Frame.announced (layout cfg) b

/-- The byte string ends before its tag or before its payload does. -/
def Short (cfg : ProtocolConfig) (b : List UInt8) : Prop :=
  b.length < headerLen + 2 + cfg.security.macLen ∨ b.length < announcedEnd cfg b

instance (cfg : ProtocolConfig) (b : List UInt8) : Decidable (Short cfg b) := inferInstanceAs (Decidable (_ ∨ _))

/-- What is left for the tag is not of the length asked for. -/
def TagMismatch (cfg : ProtocolConfig) (b : List UInt8) : Prop := b.length ≠ announcedEnd cfg b + cfg.security.macLen

/-- The kind byte stands for no kind. -/
def UnknownKindByte (b : List UInt8) (u : UInt8) : Prop := b[8]? = some u ∧ 4 < u

/-- The announced length is above the kind's limit, or no payload of the kind has it. -/
def BadPayloadLength (cfg : ProtocolConfig) (b : List UInt8) : Prop :=
  ∃ kind : PacketKind, b[8]? = some kind.toU8 ∧
    (payloadLimit kind cfg < Frame.announced (layout cfg) b ∨ ¬PayloadLength kind (Frame.announced (layout cfg) b))

theorem ofU8_of_gt {u : UInt8} (h : 4 < u) : PacketKind.ofU8 u = .err (.unknownKind u) := by
  unfold PacketKind.ofU8
  split <;> first | rfl | exact absurd h (by decide)

theorem kind_or_gt (u : UInt8) : (∃ kind : PacketKind, u = kind.toU8) ∨ 4 < u := by
  -- all 256 bytes
  have h : ∀ x : BitVec 8, (∃ kind ∈ [PacketKind.handshake, .control, .keyReport, .ack, .keepAlive],
      (⟨x⟩ : UInt8) = kind.toU8) ∨ (4 : UInt8) < ⟨x⟩ := by decide
  exact (h u.toBitVec).imp_left fun ⟨kind, _, hkind⟩ => ⟨kind, hkind⟩

theorem kind_not_gt (kind : PacketKind) : ¬4 < kind.toU8 := by
  cases kind <;> decide

theorem kind_of_toU8 {kind kind' : PacketKind} (h : kind.toU8 = kind'.toU8) : kind = kind' :=
  ok.inj ((ofU8_eq_ok.2 rfl).symm.trans (ofU8_eq_ok.2 h))

/-- A header whose kind byte is known decodes, and any other names that byte. -/
theorem decodeHeader_cases {head : List UInt8} (h : head.length = headerLen) :
    (∃ kind header, head[8]? = some kind.toU8 ∧ decodeHeader head = .ok header ∧ header.kind = kind) ∨
      ∃ u, UnknownKindByte head u ∧ decodeHeader head = .err (.unknownKind u) := by
  obtain ⟨a, c, k, f, rfl⟩ := header_parts h
  have hindex : (a.1 ++ c.1 ++ [k, f])[8]? = some k := by
    rw [List.getElem?_append_right (by simp [a.2, c.2])]
    simp [a.2, c.2]
  rw [decodeHeader_parts, hindex]
  rcases kind_or_gt k with ⟨kind, rfl⟩ | hgt
  · exact Or.inl ⟨kind, _, rfl, by rw [ofU8_eq_ok.2 rfl, ok_bind, pure_eq], rfl⟩
  · exact Or.inr ⟨k, ⟨hindex, hgt⟩, by rw [ofU8_of_gt hgt, err_bind]⟩

section Parsing

variable [Target]

/-! ## `parse_framed` -/

theorem cut_of_short {ε : Type} (lift : ParseError → ε) (hle : headerLen + 2 ≤ b.length) (h : b.length < announcedEnd cfg b) :
    cut lift b cfg = .err (lift .unexpectedLength) := by
  obtain ⟨l, hs, ha, hl⟩ := lengthField ε b cfg hle
  unfold cut
  rw [hs, ok_bind, ha, ok_bind]
  dsimp only
  rw [hl, usizeAdd_ok (payloadEnd_le_usizeMax cfg b), ok_bind,
    rejectIf_pos (show headerLen + 2 + Frame.announced (layout cfg) b > b.length from h), err_bind]

theorem cut_of_mismatch {ε : Type} (lift : ParseError → ε) (hle : announcedEnd cfg b ≤ b.length) (h : TagMismatch cfg b) :
    cut lift b cfg = .err (lift .macLengthMismatch) := by
  unfold TagMismatch announcedEnd at h
  unfold announcedEnd at hle
  obtain ⟨l, hs, ha, hl⟩ := lengthField ε b cfg (by omega)
  unfold cut
  rw [hs, ok_bind, ha, ok_bind]
  dsimp only
  rw [hl, usizeAdd_ok (payloadEnd_le_usizeMax cfg b), ok_bind, rejectIf_neg (by omega), ok_bind, rejectIf_pos (by omega),
    err_bind]

omit [Target] in
theorem not_short_of_fits (h : ¬TagMismatch cfg b) : ¬Short cfg b := by
  unfold TagMismatch announcedEnd at h
  unfold Short announcedEnd
  omega

omit [Target] in
theorem getElem?_head (f : Frame.Parts (layout cfg)) : f.bytes[8]? = f.head[8]? := by
  have hhead : 8 < f.head.length := by
    rw [f.head_length]
    show 8 < 10
    omega
  unfold Frame.Parts.bytes
  rw [List.append_assoc, List.append_assoc, List.getElem?_append_left hhead]

omit [Target] in
/-- How `parse_framed` ends on a byte string of a length that fits. -/
theorem parsePacket_cases (f : Frame.Parts (layout cfg)) :
    (∃ u, UnknownKindByte f.bytes u ∧ parsePacket f.head f.body f.tail cfg = .err (.unknownKind u)) ∨
    ((∀ u, ¬UnknownKindByte f.bytes u) ∧ BadPayloadLength cfg f.bytes ∧
      parsePacket f.head f.body f.tail cfg = .err .unexpectedLength) ∨
    ((∀ u, ¬UnknownKindByte f.bytes u) ∧ ¬BadPayloadLength cfg f.bytes ∧
      ∃ p, parsePacket f.head f.body f.tail cfg = .ok p) := by
  have htail : ¬f.tail.length ≠ cfg.security.macLen := not_not.2 f.tail_length
  have hrest : parsePacket f.head f.body f.tail cfg = (do
      let header ← decodeHeader f.head
      rejectIf (f.body.length > payloadLimit header.kind cfg) .unexpectedLength
      let payload ← decodePayload header.kind f.body
      pure { header, payload, mac := f.tail }) := by
    rw [parsePacket, rejectIf_neg htail, ok_bind]
  rw [hrest]
  unfold UnknownKindByte BadPayloadLength
  rw [getElem?_head, Frame.announced_bytes]
  rcases decodeHeader_cases f.head_length with ⟨kind, header, hbyte, hd, rfl⟩ | ⟨u, hu, hd⟩
  swap
  · exact Or.inl ⟨u, hu, by rw [hd, err_bind]⟩
  right
  have hknown : ∀ u, ¬(f.head[8]? = some u ∧ 4 < u) := by
    rintro u ⟨hu, hgt⟩
    obtain rfl := Option.some.inj (hbyte.symm.trans hu)
    exact kind_not_gt _ hgt
  have hbad : (∃ kind : PacketKind, f.head[8]? = some kind.toU8 ∧
      (payloadLimit kind cfg < f.body.length ∨ ¬PayloadLength kind f.body.length)) ↔
      payloadLimit header.kind cfg < f.body.length ∨ ¬PayloadLength header.kind f.body.length := by
    constructor
    · rintro ⟨kind, hkind, h⟩
      have hsame : header.kind = kind := kind_of_toU8 (Option.some.inj (hbyte.symm.trans hkind))
      rwa [hsame]
    · intro h; exact ⟨_, hbyte, h⟩
  rw [hd, ok_bind, hbad]
  by_cases hlimit : payloadLimit header.kind cfg < f.body.length
  · exact Or.inl ⟨hknown, Or.inl hlimit, by rw [rejectIf_pos hlimit, err_bind]⟩
  rw [rejectIf_neg hlimit, ok_bind]
  by_cases hlen : PayloadLength header.kind f.body.length
  · obtain ⟨payload, hp, -⟩ := decodePayload_ok hlen
    exact Or.inr ⟨hknown, by rintro (h | h); exacts [hlimit h, h hlen], ⟨_, by rw [hp, ok_bind, pure_eq]⟩⟩
  · exact Or.inl ⟨hknown, Or.inr hlen, by rw [decodePayload_err hlen, err_bind]⟩

theorem parseFramed_of_short (hc : FrameFits cfg) (h : Short cfg b) : parseFramed b cfg = .err .unexpectedLength := by
  rw [parseFramed_eq, usizeAdd_ok hc, ok_bind]
  by_cases hshort : b.length < headerLen + 2 + cfg.security.macLen
  · rw [rejectIf_pos hshort, err_bind]
  · rw [rejectIf_neg hshort, ok_bind, sliceTo_ok (by omega), ok_bind, cut_of_short id (by omega) (h.resolve_left hshort),
      err_bind]
    rfl

theorem parseFramed_of_mismatch (hc : FrameFits cfg) (hshort : ¬Short cfg b) (h : TagMismatch cfg b) :
    parseFramed b cfg = .err .macLengthMismatch := by
  obtain ⟨hlen, hend⟩ := not_or.1 hshort
  rw [parseFramed_eq, usizeAdd_ok hc, ok_bind, rejectIf_neg hlen, ok_bind, sliceTo_ok (by omega), ok_bind,
    cut_of_mismatch id (not_lt.1 hend) h, err_bind]
  rfl

omit [Target] in
theorem kind_known_of_bad (h : BadPayloadLength cfg b) (u : UInt8) : ¬UnknownKindByte b u := by
  rintro ⟨hu, hgt⟩
  obtain ⟨kind, hkind, -⟩ := h
  obtain rfl := Option.some.inj (hu.symm.trans hkind)
  exact kind_not_gt _ hgt

theorem parseFramed_of_bad (hc : FrameFits cfg) (hmismatch : ¬TagMismatch cfg b) (h : BadPayloadLength cfg b) :
    parseFramed b cfg = .err .unexpectedLength := by
  have hfits : Frame.Fits (layout cfg) b := fits_layout_iff.2 (not_not.1 hmismatch)
  have hcases := parsePacket_cases (Frame.parts b hfits)
  rw [Frame.bytes_parts b hfits] at hcases
  rw [parseFramed_of_fits hc hfits]
  rcases hcases with ⟨u, hu, -⟩ | ⟨-, -, he⟩ | ⟨-, hgood, -⟩
  · exact absurd hu (kind_known_of_bad h u)
  · exact he
  · exact absurd h hgood

/-- The causes of an error exclude each other, and each has one error; without any, the byte string parses. -/
theorem parse_errors (hc : FrameFits cfg) (b : List UInt8) :
    (parseFramed b cfg = .err .unexpectedLength ↔
      Short cfg b ∨ ¬TagMismatch cfg b ∧ BadPayloadLength cfg b) ∧
    (parseFramed b cfg = .err .macLengthMismatch ↔ ¬Short cfg b ∧ TagMismatch cfg b) ∧
    (∀ u, parseFramed b cfg = .err (.unknownKind u) ↔ ¬TagMismatch cfg b ∧ UnknownKindByte b u) ∧
    ((∃ p, parseFramed b cfg = .ok p) ↔
      ¬TagMismatch cfg b ∧ ¬BadPayloadLength cfg b ∧ ∀ u, ¬UnknownKindByte b u) := by
  by_cases hmismatch : TagMismatch cfg b
  · by_cases hshort : Short cfg b
    · simp [parseFramed_of_short hc hshort, hshort, hmismatch]
    · simp [parseFramed_of_mismatch hc hshort hmismatch, hshort, hmismatch]
  have hfits : Frame.Fits (layout cfg) b := fits_layout_iff.2 (not_not.1 hmismatch)
  have hshort := not_short_of_fits hmismatch
  have hparts := Frame.bytes_parts b hfits
  rw [parseFramed_of_fits hc hfits]
  have hcases := parsePacket_cases (Frame.parts b hfits)
  rw [hparts] at hcases
  rcases hcases with ⟨u, hu, he⟩ | ⟨hknown, hbad, he⟩ | ⟨hknown, hgood, p, hp⟩
  · -- the byte that stands for no kind rules a bad length out
    have hgood : ¬BadPayloadLength cfg b := fun hbad => kind_known_of_bad hbad u hu
    have hiff : ∀ v, u = v ↔ UnknownKindByte b v := by
      intro v
      constructor
      · rintro rfl; exact hu
      · intro hv; exact Option.some.inj (hu.1.symm.trans hv.1)
    rw [he]
    simp only [err.injEq, reduceCtorEq, ParseError.unknownKind.injEq, hmismatch, hshort, hgood, hiff]
    simp only [not_false_eq_true, true_and, and_false, or_self, exists_false, false_iff, implies_true]
    exact fun hnone => hnone u hu
  · rw [he]
    simp [hmismatch, hshort, hknown, hbad]
  · rw [hp]
    simp [hmismatch, hshort, hknown, hgood]

/-- A frame that was cut short or extended on the way: an extension has a tag that is too long, and of a
truncation the length tells whether the payload and the tag still have room, or not. -/
theorem parse_errors_of_damage {p : Packet} (h : parseFramed b cfg = .ok p) :
    (∀ rest ≠ [], parseFramed (b ++ rest) cfg = .err .macLengthMismatch) ∧
    (∀ n < b.length, parseFramed (b.take n) cfg =
      .err (if n < headerLen + 2 + max (payloadLen p.payload) cfg.security.macLen then .unexpectedLength
        else .macLengthMismatch)) := by
  have hc := frameFits_of_parseFramed h
  obtain ⟨f, rfl, hp⟩ := (parseFramed_eq_ok hc).1 h
  obtain ⟨-, -, -, hd, -⟩ := parsePacket_eq_ok.1 hp
  have hbody : f.body.length = payloadLen p.payload := by
    rw [← (decodePayload_eq_ok.1 hd).2, length_encodePayload]
  have hlen : f.bytes.length = headerLen + 2 + f.body.length + cfg.security.macLen := Frame.bytes_length f
  have hend := Frame.announced_bytes f
  rw [← hbody]
  constructor
  · intro rest hrest
    have hpos := List.length_pos_of_ne_nil hrest
    have hann : Frame.announced (layout cfg) (f.bytes ++ rest) = f.body.length := by
      rw [Frame.announced_append (show headerLen + 2 ≤ _ by omega), hend]
    refine parseFramed_of_mismatch hc ?_ ?_
    · rw [Short, announcedEnd, hann, List.length_append]; omega
    · rw [TagMismatch, announcedEnd, hann, List.length_append]; omega
  · intro n hn
    have hlength : (f.bytes.take n).length = n := by rw [List.length_take]; omega
    have hann : headerLen + 2 ≤ n → Frame.announced (layout cfg) (f.bytes.take n) = f.body.length := by
      intro hle
      have happend := Frame.announced_append (L := layout cfg) (b := f.bytes.take n) (show headerLen + 2 ≤ _ by omega)
        (f.bytes.drop n)
      rw [List.take_append_drop, hend] at happend
      exact happend.symm
    split_ifs with hcut
    · refine parseFramed_of_short hc ?_
      rw [Short, announcedEnd, hlength]
      by_cases hle : headerLen + 2 ≤ n
      · rw [hann hle]; omega
      · omega
    · refine parseFramed_of_mismatch hc ?_ ?_
      · rw [Short, announcedEnd, hlength, hann (by omega)]; omega
      · rw [TagMismatch, announcedEnd, hlength, hann (by omega)]; omega

/-! ## `open_framed` -/

/-- The announced length is above the limit of the kind. -/
def AboveLimit (cfg : ProtocolConfig) (b : List UInt8) : Prop :=
  ∃ kind : PacketKind, b[8]? = some kind.toU8 ∧ payloadLimit kind cfg < Frame.announced (layout cfg) b

/-- A frame of a known kind and of lengths that fit: all that `open_framed` passes on to the AEAD. -/
structure Whole (cfg : ProtocolConfig) (b : List UInt8) : Prop where
  fits : ¬TagMismatch cfg b
  known : ∀ u, ¬UnknownKindByte b u
  limit : ¬AboveLimit cfg b

variable {aead : Aead} {nonce : List UInt8}

theorem openFramed_of_long (hc : FrameFits cfg) (aead : Aead) (nonce : List UInt8)
    (hlen : headerLen + 2 + cfg.security.macLen ≤ b.length) :
    openFramed b cfg aead nonce = (do
      let header ← (decodeHeader (b.take headerLen)).mapErr .parse
      let (payloadBytes, macBytes) ← cut .parse b cfg
      openParts header payloadBytes macBytes cfg aead nonce) := by
  rw [openFramed_eq, usizeAdd_ok hc, ok_bind, rejectIf_neg (by omega), ok_bind, sliceTo_ok (by omega), ok_bind]

omit [Target] in
theorem getElem?_take_head (b : List UInt8) : (b.take headerLen)[8]? = b[8]? :=
  List.getElem?_take_of_lt (by show 8 < 10; omega)

omit [Target] in
theorem length_body (hfits : Frame.Fits (layout cfg) b) :
    (Frame.parts b hfits).body.length = Frame.announced (layout cfg) b := by
  rw [← Frame.announced_bytes, Frame.bytes_parts]

omit [Target] in
/-- The header of a byte string that is long enough decodes if its kind byte is known. -/
theorem exists_header (hlen : headerLen + 2 + cfg.security.macLen ≤ b.length) (hknown : ∀ u, ¬UnknownKindByte b u) :
    ∃ header : PacketHeader, b[8]? = some header.kind.toU8 ∧ decodeHeader (b.take headerLen) = .ok header := by
  have htake : (b.take headerLen).length = headerLen := by rw [List.length_take]; omega
  rcases decodeHeader_cases htake with ⟨kind, header, hbyte, hd, rfl⟩ | ⟨v, hv, -⟩
  · rw [getElem?_take_head] at hbyte
    exact ⟨header, hbyte, hd⟩
  · have hbyte := hv.1
    rw [getElem?_take_head] at hbyte
    exact absurd ⟨hbyte, hv.2⟩ (hknown v)

/-- An unknown kind is blamed ahead of a length that does not fit. -/
theorem openFramed_of_unknown (hc : FrameFits cfg) (aead : Aead) (nonce : List UInt8)
    (hlen : headerLen + 2 + cfg.security.macLen ≤ b.length) {u : UInt8} (hu : UnknownKindByte b u) :
    openFramed b cfg aead nonce = .err (.parse (.unknownKind u)) := by
  rw [openFramed_of_long hc aead nonce hlen]
  have htake : (b.take headerLen).length = headerLen := by rw [List.length_take]; omega
  rcases decodeHeader_cases htake with ⟨kind, header, hbyte, -⟩ | ⟨v, hv, hd⟩
  · rw [getElem?_take_head] at hbyte
    obtain rfl := Option.some.inj (hu.1.symm.trans hbyte)
    exact absurd hu.2 (kind_not_gt kind)
  · have hsame := hv.1
    rw [getElem?_take_head] at hsame
    obtain rfl := Option.some.inj (hu.1.symm.trans hsame)
    rw [hd]
    rfl

/-- With a known kind byte, what is wrong with a byte string is what `parse_framed` says. -/
theorem openFramed_of_not_whole (hc : FrameFits cfg) (aead : Aead) (nonce : List UInt8) (hnot : ¬Whole cfg b)
    (hlen : headerLen + 2 + cfg.security.macLen ≤ b.length) (hknown : ∀ u, ¬UnknownKindByte b u) :
    ∃ e, parseFramed b cfg = .err e ∧ openFramed b cfg aead nonce = .err (.parse e) := by
  obtain ⟨header, hbyte, hd⟩ := exists_header hlen hknown
  rw [openFramed_of_long hc aead nonce hlen, hd, mapErr_ok, ok_bind]
  by_cases hshort : Short cfg b
  · refine ⟨.unexpectedLength, parseFramed_of_short hc hshort, ?_⟩
    rw [cut_of_short CryptoError.parse (by omega) (hshort.resolve_left (not_lt.2 hlen)), err_bind]
  by_cases hmismatch : TagMismatch cfg b
  · refine ⟨.macLengthMismatch, parseFramed_of_mismatch hc hshort hmismatch, ?_⟩
    rw [cut_of_mismatch CryptoError.parse (not_lt.1 (not_or.1 hshort).2) hmismatch, err_bind]
  -- a frame of a known kind that fits is not whole only for its limit
  have hfits : Frame.Fits (layout cfg) b := fits_layout_iff.2 (not_not.1 hmismatch)
  have habove : AboveLimit cfg b := by
    by_contra hlimit
    exact hnot ⟨hmismatch, hknown, hlimit⟩
  obtain ⟨kind, hkind, hlimit⟩ := habove
  have hsame := kind_of_toU8 (Option.some.inj (hbyte.symm.trans hkind))
  refine ⟨.unexpectedLength, parseFramed_of_bad hc hmismatch ⟨kind, hkind, Or.inl hlimit⟩, ?_⟩
  rw [cut_of_fits hfits, ok_bind]
  simp only [openParts]
  rw [rejectIf_pos (by rw [length_body hfits, hsame]; exact hlimit), err_bind]

theorem openFramed_of_whole (hc : FrameFits cfg) (aead : Aead) (nonce : List UInt8) (h : Whole cfg b) :
    ∃ (header : PacketHeader) (payloadBytes macBytes : List UInt8),
      decodeHeader (b.take headerLen) = .ok header ∧ b.drop (headerLen + 2) = payloadBytes ++ macBytes ∧
        macBytes.length = cfg.security.macLen ∧
        openFramed b cfg aead nonce = (do
          let plaintext ← aead.open nonce (associatedData header payloadBytes.length).1 payloadBytes macBytes
          let payload ← (decodePayload header.kind plaintext).mapErr .parse
          pure { header, payload, mac := macBytes }) := by
  have hfits : Frame.Fits (layout cfg) b := fits_layout_iff.2 (not_not.1 h.fits)
  have hlength := fits_layout_iff.1 hfits
  obtain ⟨header, hbyte, hd⟩ := @exists_header b cfg (by omega) h.known
  have hlimit : ¬(Frame.parts b hfits).body.length > payloadLimit header.kind cfg := by
    rw [length_body hfits]
    exact fun hgt => h.limit ⟨_, hbyte, hgt⟩
  refine ⟨header, (Frame.parts b hfits).body, (Frame.parts b hfits).tail, hd, ?_, Frame.Parts.tail_length _, ?_⟩
  · have hdrop := Frame.bytes_drop_len (Frame.parts b hfits)
    rwa [Frame.bytes_parts] at hdrop
  · have hhead : decodeHeader (Frame.parts b hfits).head = .ok header := hd
    rw [openFramed_of_fits hc hfits, hhead, mapErr_ok, ok_bind, openParts, rejectIf_neg hlimit, ok_bind]

/-- The AEAD is asked about whole frames only: what `open_framed` makes of any other byte string depends on
neither the AEAD nor the nonce, and is the error of `parse_framed`, unless the byte string is long enough and its
kind byte unknown, which is then what is wrong with it. -/
theorem open_errors (hc : FrameFits cfg) (aead : Aead) (nonce : List UInt8) :
    (∀ u, headerLen + 2 + cfg.security.macLen ≤ b.length → UnknownKindByte b u →
      openFramed b cfg aead nonce = .err (.parse (.unknownKind u))) ∧
    (¬Whole cfg b → (b.length < headerLen + 2 + cfg.security.macLen ∨ ∀ u, ¬UnknownKindByte b u) →
      ∃ e, parseFramed b cfg = .err e ∧ openFramed b cfg aead nonce = .err (.parse e)) ∧
    (Whole cfg b → ∃ (header : PacketHeader) (payloadBytes macBytes : List UInt8),
      decodeHeader (b.take headerLen) = .ok header ∧ b.drop (headerLen + 2) = payloadBytes ++ macBytes ∧
        macBytes.length = cfg.security.macLen ∧
        openFramed b cfg aead nonce = (do
          let plaintext ← aead.open nonce (associatedData header payloadBytes.length).1 payloadBytes macBytes
          let payload ← (decodePayload header.kind plaintext).mapErr .parse
          pure { header, payload, mac := macBytes })) := by
  refine ⟨fun u hlen hu => openFramed_of_unknown hc aead nonce hlen hu, fun hnot hknown => ?_, openFramed_of_whole hc aead nonce⟩
  by_cases hlen : b.length < headerLen + 2 + cfg.security.macLen
  · refine ⟨.unexpectedLength, parseFramed_of_short hc (Or.inl hlen), ?_⟩
    rw [openFramed_eq, usizeAdd_ok hc, ok_bind, rejectIf_pos hlen, err_bind]
  · exact openFramed_of_not_whole hc aead nonce hnot (not_lt.1 hlen) (hknown.resolve_left hlen)

end Parsing

/-- The announced length of the sample frame is raised to 255. -/
theorem parse_errors_corrupted : @parseFramed target64 (plainFrame.set 10 0xFF) demoConfig = .err .unexpectedLength :=
  (@parse_errors demoConfig target64 (by decide) (plainFrame.set 10 0xFF)).1.2 (Or.inl (by decide))

/-- The last byte of the sample frame is lost. -/
theorem parse_errors_of_damage_sample : @parseFramed target64 (plainFrame.take 28) demoConfig = .err .macLengthMismatch :=
  (@parse_errors_of_damage plainFrame demoConfig target64 (sampleKeyReport demoConfig 1) (by decide)).2 28
    (by decide)

/-- It is lost, and the kind byte is changed. -/
theorem open_errors_sample : @openFramed target64 ((plainFrame.set 8 9).take 28) demoConfig dummyAead [] =
    .err (.parse (.unknownKind 9)) :=
  (@open_errors ((plainFrame.set 8 9).take 28) demoConfig target64 (by decide) dummyAead []).1 9 (by decide)
    ⟨by decide, by decide⟩

end KeyboardProject.Wire
