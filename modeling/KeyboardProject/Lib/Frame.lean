/-
Length-prefixed frames: a header of a fixed width, the body's length as a little-endian number of a
fixed width, the body, and a trailer of a fixed width. A byte string is a frame of a layout in at
most one way, exactly when its length is the one its length field announces, and no frame is a
proper prefix of another.
-/
import KeyboardProject.Lib.LittleEndian

namespace Frame

/-- The widths of a frame's fixed parts: header, length field, trailer. -/
structure Layout where
  head : Nat
  len : Nat
  tail : Nat

variable {L : Layout}

/-- The parts of one frame, of the widths its layout asks for. -/
@[ext] structure Parts (L : Layout) where
  head : List UInt8
  body : List UInt8
  tail : List UInt8
  head_length : head.length = L.head
  body_lt : body.length < 256 ^ L.len
  tail_length : tail.length = L.tail

/-- The bytes of a frame. -/
def Parts.bytes (f : Parts L) : List UInt8 :=
  f.head ++ LittleEndian.encode L.len f.body.length ++ f.body ++ f.tail

/-- The same frame under another header. -/
def Parts.withHead (f : Parts L) (head : List UInt8) (h : head.length = L.head) : Parts L :=
  { f with head := head, head_length := h }

/-- The body length a byte string announces. -/
def announced (L : Layout) (b : List UInt8) : Nat := LittleEndian.value ((b.drop L.head).take L.len)

/-- A byte string as long as it announces. -/
def Fits (L : Layout) (b : List UInt8) : Prop := b.length = L.head + L.len + announced L b + L.tail

instance (L : Layout) (b : List UInt8) : Decidable (Fits L b) := inferInstanceAs (Decidable (_ = _))

theorem announced_lt (L : Layout) (b : List UInt8) : announced L b < 256 ^ L.len := by
  have h := LittleEndian.value_lt ((b.drop L.head).take L.len)
  exact h.trans_le (Nat.pow_le_pow_right (by omega) (List.length_take_le _ _))

/-! ## Cutting a byte string into its parts -/

/-- The parts of a byte string as long as it announces. -/
def parts (b : List UInt8) (h : Fits L b) : Parts L where
  head := b.take L.head
  body := (b.drop (L.head + L.len)).take (announced L b)
  tail := b.drop (L.head + L.len + announced L b)
  head_length := by unfold Fits at h; simp; omega
  body_lt := (List.length_take_le _ _).trans_lt (announced_lt L b)
  tail_length := by unfold Fits at h; simp; omega

theorem bytes_parts (b : List UInt8) (h : Fits L b) : (parts b h).bytes = b := by
  have hb : (parts b h).body.length = announced L b := by
    unfold Fits at h; simp [parts]; omega
  have hl : ((b.drop L.head).take L.len).length = L.len := by
    unfold Fits at h; simp; omega
  have hlen : LittleEndian.encode L.len (announced L b) = (b.drop L.head).take L.len := by
    have h := LittleEndian.encode_value ((b.drop L.head).take L.len)
    rwa [hl] at h
  have hrest : (b.drop (L.head + L.len)).take (announced L b) ++ b.drop (L.head + L.len + announced L b) =
      b.drop (L.head + L.len) := by
    rw [← List.drop_drop (j := L.head + L.len), List.take_append_drop]
  unfold Parts.bytes
  rw [hb, hlen]
  simp only [parts]
  rw [← List.take_add, List.append_assoc, hrest, List.take_append_drop]

@[simp] theorem bytes_length (f : Parts L) : f.bytes.length = L.head + L.len + f.body.length + L.tail := by
  simp [Parts.bytes, f.head_length, f.tail_length, Nat.add_assoc]

@[simp] theorem announced_bytes (f : Parts L) : announced L f.bytes = f.body.length := by
  unfold announced Parts.bytes
  rw [List.append_assoc, List.append_assoc, ← f.head_length, List.drop_left,
    List.take_left' (LittleEndian.length_encode _ _), LittleEndian.value_encode_of_lt f.body_lt]

theorem fits_bytes (f : Parts L) : Fits L f.bytes := by
  unfold Fits; rw [announced_bytes, bytes_length]

@[simp] theorem bytes_take_head (f : Parts L) : f.bytes.take L.head = f.head := by
  unfold Parts.bytes
  rw [List.append_assoc, List.append_assoc, ← f.head_length, List.take_left]

@[simp] theorem bytes_drop_len (f : Parts L) : f.bytes.drop (L.head + L.len) = f.body ++ f.tail := by
  unfold Parts.bytes
  rw [List.append_assoc]
  exact List.drop_left' (by simp [f.head_length])

/-! ## One way to read, none to extend -/

theorem bytes_inj {f g : Parts L} (h : f.bytes = g.bytes) : f = g := by
  have hlen : f.body.length = g.body.length := by rw [← announced_bytes, ← announced_bytes, h]
  have hrest : f.body ++ f.tail = g.body ++ g.tail := by rw [← bytes_drop_len, ← bytes_drop_len, h]
  obtain ⟨hbody, htail⟩ := List.append_inj hrest hlen
  exact Parts.ext (by rw [← bytes_take_head, ← bytes_take_head, h]) hbody htail

/-- Behind the length field nothing changes what it announces. -/
theorem announced_append {b : List UInt8} (h : L.head + L.len ≤ b.length) (rest : List UInt8) :
    announced L (b ++ rest) = announced L b := by
  unfold announced
  rw [List.drop_append_of_le_length (by omega), List.take_append_of_le_length (by simp; omega)]

/-- Two frames of one layout, one a prefix of the other, are the same. -/
theorem eq_of_prefix {f g : Parts L} (h : f.bytes <+: g.bytes) : f.bytes = g.bytes := by
  obtain ⟨rest, hrest⟩ := h
  have hann : announced L f.bytes = announced L g.bytes := by
    have hle : L.head + L.len ≤ f.bytes.length := by rw [bytes_length]; omega
    unfold announced
    rw [← hrest, List.drop_append_of_le_length (by omega), List.take_append_of_le_length (by simp; omega)]
  have hlen : f.bytes.length = g.bytes.length := by
    rw [announced_bytes, announced_bytes] at hann
    rw [bytes_length, bytes_length, hann]
  have hnil : rest = [] := by
    rw [← hrest, List.length_append] at hlen
    exact List.length_eq_zero_iff.1 (by omega)
  rw [← hrest, hnil, List.append_nil]

end Frame
