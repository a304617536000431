/-
The plaintext framing: `parse_framed` accepts exactly the frames of `serialize_framed`, up to the
unused bits of the flags byte, and no accepted frame is a prefix of another.
-/
import KeyboardProject.Lib.Frame
import KeyboardProject.Wire.Header
import KeyboardProject.Wire.Payload
import KeyboardProject.Proto.Samples

namespace KeyboardProject.Wire

open Rust Rust.Outcome Proto

variable {ε : Type} {lift : ParseError → ε} {b : List UInt8} {cfg : ProtocolConfig}

/-! ## The parts of a packet -/

theorem parsePacket_eq_ok {hb pb mb : List UInt8} {p : Packet} :
    parsePacket hb pb mb cfg = .ok p ↔
      mb.length = cfg.security.macLen ∧ decodeHeader hb = .ok p.header ∧
        pb.length ≤ payloadLimit p.header.kind cfg ∧ decodePayload p.header.kind pb = .ok p.payload ∧ mb = p.mac := by
  unfold parsePacket
  simp only [bind_eq_ok, rejectIf_eq_ok, exists_const, not_not, not_lt, gt_iff_lt, pure_eq, ok.injEq]
  constructor
  · rintro ⟨h1, header, h2, h3, payload, h4, rfl⟩; exact ⟨h1, h2, h3, h4, rfl⟩
  · rintro ⟨h1, h2, h3, h4, rfl⟩; exact ⟨h1, _, h2, h3, _, h4, rfl⟩

theorem parsePacket_ne_panic (hb pb mb : List UInt8) (cfg : ProtocolConfig) : parsePacket hb pb mb cfg ≠ .panic := by
  unfold parsePacket
  simp [bind_eq_panic, decodeHeader_ne_panic, decodePayload_ne_panic]

/-! ## Cutting a frame -/

/-- The frame both parsers cut: header, `u16` length, payload, tag. -/
def layout (cfg : ProtocolConfig) : Frame.Layout := ⟨headerLen, 2, cfg.security.macLen⟩

/-- The part that `parse_framed` and `open_framed` share, after the first length check: the payload
and the tag of a frame. -/
def cut [Target] {ε : Type} (lift : ParseError → ε) (bytes : List UInt8) (cfg : ProtocolConfig) :
    Outcome ε (List UInt8 × List UInt8) := do
  let payloadLen := (u16FromLeBytes (← intoArr 2 (← slice bytes headerLen (headerLen + 2)))).toNat
  let payloadEnd ← usizeAdd (headerLen + 2) payloadLen
  rejectIf (payloadEnd > bytes.length) (lift .unexpectedLength)
  rejectIf (bytes.length - payloadEnd ≠ cfg.security.macLen) (lift .macLengthMismatch)
  let payloadBytes ← slice bytes (headerLen + 2) payloadEnd
  let macBytes ← sliceFrom bytes payloadEnd
  pure (payloadBytes, macBytes)

theorem fits_layout_iff : Frame.Fits (layout cfg) b ↔
    b.length = headerLen + 2 + Frame.announced (layout cfg) b + cfg.security.macLen := Iff.rfl

/-- The two bytes of the length field and what they announce. -/
theorem lengthField (ε : Type) (b : List UInt8) (cfg : ProtocolConfig) (h : headerLen + 2 ≤ b.length) :
    ∃ l : Arr UInt8 2, (slice b headerLen (headerLen + 2) : Outcome ε _) = .ok l.1 ∧
      (intoArr 2 l.1 : Outcome ε _) = .ok l ∧ (u16FromLeBytes l).toNat = Frame.announced (layout cfg) b := by
  have hl : ((b.take (headerLen + 2)).drop headerLen).length = 2 := by
    rw [List.length_drop, List.length_take]; omega
  refine ⟨⟨_, hl⟩, slice_ok (by omega) h, intoArr_ok hl, ?_⟩
  rw [u16FromLeBytes_toNat, Frame.announced]
  congr 1
  rw [List.take_drop]
  rfl

variable [Target]

/-- The end of the payload never overflows: a length field is below `2 ^ 16`. -/
theorem payloadEnd_le_usizeMax (cfg : ProtocolConfig) (b : List UInt8) :
    headerLen + 2 + Frame.announced (layout cfg) b ≤ usizeMax := by
  have h1 := Frame.announced_lt (layout cfg) b
  have h2 := usizeMax_wide
  have h3 : (layout cfg).len = 2 := rfl
  rw [h3] at h1
  unfold headerLen
  omega

theorem cut_of_fits (h : Frame.Fits (layout cfg) b) :
    cut lift b cfg = .ok ((Frame.parts b h).body, (Frame.parts b h).tail) := by
  have hlen := fits_layout_iff.1 h
  obtain ⟨l, hs, ha, hl⟩ := lengthField ε b cfg (by omega)
  unfold cut
  rw [hs, ok_bind, ha, ok_bind]
  dsimp only
  rw [hl, usizeAdd_ok (payloadEnd_le_usizeMax cfg b), ok_bind, rejectIf_neg (by omega), ok_bind,
    rejectIf_neg (by omega), ok_bind, slice_ok (by omega) (by omega), ok_bind, sliceFrom_ok (by omega), ok_bind,
    ← List.take_drop]
  rfl

theorem cut_of_not_fits (lift : ParseError → ε) (hle : headerLen + 2 ≤ b.length)
    (h : ¬Frame.Fits (layout cfg) b) : (cut lift b cfg).IsErr := by
  have hlen := mt fits_layout_iff.2 h
  obtain ⟨l, hs, ha, hl⟩ := lengthField ε b cfg hle
  unfold cut
  rw [hs, ok_bind, ha, ok_bind]
  dsimp only
  rw [hl, usizeAdd_ok (payloadEnd_le_usizeMax cfg b), ok_bind]
  by_cases hend : headerLen + 2 + Frame.announced (layout cfg) b > b.length
  · rw [rejectIf_pos hend, err_bind]; exact ⟨_, rfl⟩
  · rw [rejectIf_neg hend, ok_bind, rejectIf_pos (by omega), err_bind]; exact ⟨_, rfl⟩

/-- The body of `parse_framed` around the shared part. -/
theorem parseFramed_eq (b : List UInt8) (cfg : ProtocolConfig) :
    parseFramed b cfg = (do
      rejectIf (b.length < (← usizeAdd (headerLen + 2) cfg.security.macLen)) .unexpectedLength
      let headerBytes ← sliceTo b headerLen
      let (payloadBytes, macBytes) ← cut id b cfg
      parsePacket headerBytes payloadBytes macBytes cfg) := by
  simp only [parseFramed, cut, bind_assoc, pure_bind, id]

/-- The shortest frame of a configuration can be counted in a `usize`. -/
def FrameFits (cfg : ProtocolConfig) : Prop := headerLen + 2 + cfg.security.macLen ≤ usizeMax

instance (cfg : ProtocolConfig) : Decidable (FrameFits cfg) := inferInstanceAs (Decidable (_ ≤ _))

theorem frameFits_of_length_le {s : List UInt8} (hs : s.length = cfg.security.macLen) (h : s.length ≤ isizeMax) :
    FrameFits cfg := by
  rw [FrameFits, ← hs]
  exact add_isizeMax_le_usizeMax (by decide) h

/-- The sum in front of both parsers overflows. -/
theorem parseFramed_of_overflow (hc : ¬FrameFits cfg) : parseFramed b cfg = .panic := by
  rw [parseFramed_eq, usizeAdd_overflow hc, panic_bind]

theorem parseFramed_of_fits (hc : FrameFits cfg) (h : Frame.Fits (layout cfg) b) :
    parseFramed b cfg = parsePacket (Frame.parts b h).head (Frame.parts b h).body (Frame.parts b h).tail cfg := by
  have hlen := fits_layout_iff.1 h
  rw [parseFramed_eq, usizeAdd_ok hc, ok_bind, rejectIf_neg (by omega), ok_bind, sliceTo_ok (by omega), ok_bind,
    cut_of_fits h, ok_bind]
  rfl

theorem parseFramed_of_not_fits (hc : FrameFits cfg) (h : ¬Frame.Fits (layout cfg) b) : (parseFramed b cfg).IsErr := by
  rw [parseFramed_eq, usizeAdd_ok hc, ok_bind]
  by_cases hshort : b.length < headerLen + 2 + cfg.security.macLen
  · rw [rejectIf_pos hshort, err_bind]; exact ⟨_, rfl⟩
  · obtain ⟨e, he⟩ := cut_of_not_fits id (by omega) h
    rw [rejectIf_neg hshort, ok_bind, sliceTo_ok (by omega), ok_bind, he, err_bind]
    exact ⟨e, rfl⟩

/-- `parse_framed` hands the parts of a frame to `parse_packet`, and accepts nothing else. -/
theorem parseFramed_eq_ok (hc : FrameFits cfg) {p : Packet} :
    parseFramed b cfg = .ok p ↔
      ∃ f : Frame.Parts (layout cfg), f.bytes = b ∧ parsePacket f.head f.body f.tail cfg = .ok p := by
  by_cases h : Frame.Fits (layout cfg) b
  · rw [parseFramed_of_fits hc h]
    constructor
    · intro hp; exact ⟨_, Frame.bytes_parts b h, hp⟩
    · rintro ⟨f, hf, hp⟩
      rwa [Frame.bytes_inj ((Frame.bytes_parts b h).trans hf.symm)]
  · obtain ⟨e, he⟩ := parseFramed_of_not_fits hc h
    rw [he]
    constructor
    · intro hp; contradiction
    · rintro ⟨f, rfl, -⟩; exact absurd (Frame.fits_bytes f) h

theorem frameFits_of_parseFramed {p : Packet} (h : parseFramed b cfg = .ok p) : FrameFits cfg := by
  by_contra hc
  rw [parseFramed_of_overflow hc] at h
  contradiction

theorem parseFramed_ne_panic (hc : FrameFits cfg) (b : List UInt8) : parseFramed b cfg ≠ .panic := by
  by_cases h : Frame.Fits (layout cfg) b
  · rw [parseFramed_of_fits hc h]
    exact parsePacket_ne_panic _ _ _ _
  · exact (isErr_iff.1 (parseFramed_of_not_fits hc h)).1

/-! ## The serializer's frames -/

omit [Target]

/-- `serialize_framed` writes the frame of the packet's parts. -/
theorem serializeFramed_eq_ok_bytes {p : Packet} :
    serializeFramed p cfg = .ok b ↔
      ∃ f : Frame.Parts (layout cfg), f.bytes = b ∧ f.head = (encodeHeader p.header).1 ∧
        f.body = encodePayload p.payload ∧ f.tail = p.mac ∧ f.body.length ≤ payloadLimit p.header.kind cfg := by
  rw [serializeFramed_eq_ok]
  constructor
  · rintro ⟨hle, hmac, rfl⟩
    exact ⟨⟨_, _, _, (encodeHeader p.header).2, hle.trans_lt (payloadLimit_lt _ _), hmac⟩, rfl, rfl, rfl, rfl, hle⟩
  · rintro ⟨f, rfl, hh, hb, ht, hle⟩
    rw [Frame.Parts.bytes, hh, hb, ht]
    exact ⟨hb ▸ hle, ht ▸ f.tail_length, rfl⟩

/-- Clearing the unused bits of a frame clears them in its header. -/
theorem clearUnusedFlags_bytes (f : Frame.Parts (layout cfg)) :
    clearUnusedFlags f.bytes =
      (f.withHead (clearUnusedFlags f.head) ((length_clearUnusedFlags _).trans f.head_length)).bytes := by
  unfold Frame.Parts.bytes
  rw [List.append_assoc, List.append_assoc, clearUnusedFlags_append f.head_length]
  simp only [Frame.Parts.withHead, List.append_assoc]

theorem fits_clearUnusedFlags : Frame.Fits (layout cfg) (clearUnusedFlags b) ↔ Frame.Fits (layout cfg) b := by
  have h : Frame.announced (layout cfg) (clearUnusedFlags b) = Frame.announced (layout cfg) b := by
    have hdrop : (clearUnusedFlags b).drop headerLen = b.drop headerLen := List.drop_modify_of_lt _ _ _ _ (by decide)
    exact congrArg (fun l => LittleEndian.value (l.take 2)) hdrop
  rw [fits_layout_iff, fits_layout_iff, h, length_clearUnusedFlags]

/-- A frame with its unused bits cleared comes from a frame with the same body and tag. -/
theorem exists_parts_of_clear {g : Frame.Parts (layout cfg)} (hg : g.bytes = clearUnusedFlags b) :
    ∃ f : Frame.Parts (layout cfg), f.bytes = b ∧ g.head = clearUnusedFlags f.head ∧ g.body = f.body ∧ g.tail = f.tail := by
  have hfits : Frame.Fits (layout cfg) b := by
    rw [← fits_clearUnusedFlags, ← hg]; exact Frame.fits_bytes g
  have hf := Frame.bytes_parts b hfits
  generalize Frame.parts b hfits = f at hf
  obtain rfl : g = f.withHead (clearUnusedFlags f.head) _ := Frame.bytes_inj <| by
    rw [hg, ← hf, clearUnusedFlags_bytes]
  exact ⟨f, hf, rfl, rfl, rfl⟩

/-- `serialize_framed` leaves the unused flag bits clear. -/
theorem clearUnusedFlags_serializeFramed {p : Packet} (h : serializeFramed p cfg = .ok b) : clearUnusedFlags b = b := by
  obtain ⟨f, rfl, hh, -⟩ := serializeFramed_eq_ok_bytes.1 h
  have hclear : clearUnusedFlags f.head = f.head := by rw [hh, clearUnusedFlags_encodeHeader]
  rw [clearUnusedFlags_bytes]
  exact congrArg Frame.Parts.bytes (Frame.Parts.ext hclear rfl rfl)

/-! ## The language of the parser -/

section Language

variable [Target]

/-- `parse_framed` reads a byte string as a packet exactly when the packet's payload is one of its
kind's and `serialize_framed` writes that byte string, with the unused flag bits clear. -/
theorem parseFramed_eq_ok_iff (hc : FrameFits cfg) {p : Packet} :
    parseFramed b cfg = .ok p ↔
      matchesValidKindPayload p.header.kind p.payload = true ∧ serializeFramed p cfg = .ok (clearUnusedFlags b) := by
  rw [parseFramed_eq_ok hc, serializeFramed_eq_ok_bytes]
  simp only [parsePacket_eq_ok, decodeHeader_eq_ok, decodePayload_eq_ok]
  constructor
  · rintro ⟨f, rfl, -, ⟨-, hh⟩, hle, ⟨hm, hb⟩, ht⟩
    exact ⟨hm, _, (clearUnusedFlags_bytes f).symm, hh.symm, hb.symm, ht, hle⟩
  · -- the serializer's frame is `b` cleared; the parser reads the same parts off `b`
    rintro ⟨hm, g, hg, hh, hb, ht, hle⟩
    obtain ⟨f, rfl, hgh, hgb, hgt⟩ := exists_parts_of_clear hg
    rw [hgh] at hh
    rw [hgb] at hb hle
    rw [hgt] at ht
    exact ⟨f, rfl, f.tail_length, ⟨f.head_length, hh.symm⟩, hle, ⟨hm, hb.symm⟩, ht⟩

theorem parseFramed_serializeFramed (hc : FrameFits cfg) {p : Packet}
    (hm : matchesValidKindPayload p.header.kind p.payload = true) (h : serializeFramed p cfg = .ok b) :
    parseFramed b cfg = .ok p :=
  (parseFramed_eq_ok_iff hc).2 ⟨hm, by rw [clearUnusedFlags_serializeFramed h, h]⟩

/-- A frame of `serialize_framed` comes from one kind-matched packet only. -/
theorem serializeFramed_inj (hc : FrameFits cfg) {p q : Packet}
    (hp : matchesValidKindPayload p.header.kind p.payload = true)
    (hq : matchesValidKindPayload q.header.kind q.payload = true) (h : serializeFramed p cfg = .ok b)
    (h' : serializeFramed q cfg = .ok b) : p = q :=
  ok.inj ((parseFramed_serializeFramed hc hp h).symm.trans (parseFramed_serializeFramed hc hq h'))

/-- No proper prefix and no proper extension of an accepted frame is accepted. -/
theorem parseFramed_isErr_of_prefix (hc : FrameFits cfg) {b' : List UInt8} {p : Packet} (h : parseFramed b cfg = .ok p)
    (hpre : b <+: b' ∨ b' <+: b) (hne : b' ≠ b) : (parseFramed b' cfg).IsErr := by
  refine isErr_iff.2 ⟨parseFramed_ne_panic hc b', fun q hq => hne ?_⟩
  obtain ⟨f, rfl, -⟩ := (parseFramed_eq_ok hc).1 h
  obtain ⟨g, rfl, -⟩ := (parseFramed_eq_ok hc).1 hq
  rcases hpre with hpre | hpre
  · exact (Frame.eq_of_prefix hpre).symm
  · exact Frame.eq_of_prefix hpre

/-- The parser accepts exactly the serializer's language: the flags byte's unused bits aside, a byte
string parses as `p` when it is the frame of `p` and `p` is kind-matched; so frames round-trip, have
one reading, and are prefix-free. -/
theorem parseFramed_language (hc : FrameFits cfg) :
    (∀ b p, parseFramed b cfg = .ok p ↔
      matchesValidKindPayload p.header.kind p.payload = true ∧ serializeFramed p cfg = .ok (clearUnusedFlags b)) ∧
    (∀ b p, matchesValidKindPayload p.header.kind p.payload = true → serializeFramed p cfg = .ok b →
      parseFramed b cfg = .ok p) ∧
    (∀ b p q, parseFramed b cfg = .ok p → matchesValidKindPayload q.header.kind q.payload = true →
      serializeFramed q cfg = .ok (clearUnusedFlags b) → q = p) ∧
    (∀ b b' p, parseFramed b cfg = .ok p → b <+: b' ∨ b' <+: b → b' ≠ b → (parseFramed b' cfg).IsErr) := by
  refine ⟨fun b p => parseFramed_eq_ok_iff hc, fun b p => parseFramed_serializeFramed hc, ?_, ?_⟩
  · intro b p q hp hm hq
    obtain ⟨hm', hp'⟩ := (parseFramed_eq_ok_iff hc).1 hp
    exact serializeFramed_inj hc hm hm' hq hp'
  · intro b b' p h hpre hne
    exact parseFramed_isErr_of_prefix hc h hpre hne

end Language

/-- The frame of the sample key report. -/
def plainFrame : List UInt8 := [0x55, 0x66, 0x77, 0x88, 1, 0, 0, 0, 2, 3] ++ [1, 0] ++ [0x04] ++ List.replicate 16 0x22

theorem parseFramed_language_sample : @parseFramed target64 plainFrame demoConfig = .ok (sampleKeyReport demoConfig 1) :=
  (@parseFramed_language demoConfig target64 (by decide)).2.1 _ (sampleKeyReport demoConfig 1) rfl (by decide)

end KeyboardProject.Wire
