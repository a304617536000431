/-
Keys and salts on the host simulator's command line (`host-sim/src/main.rs`): `parse_hex_bytes` slices the
text at every even byte offset and leaves each pair to `u8::from_str_radix`, which takes a plus sign.
-/
import KeyboardProject.Proto.Types
import KeyboardProject.Rust.Parse
import KeyboardProject.Rust.Vec

namespace KeyboardProject.HostSim

open Rust Rust.Outcome Proto Numeral

/-- One turn of the loop: the byte at an offset of the text. -/
def hexPair [Target] (s : Str) (i : Nat) : Outcome String UInt8 := do
  let pair ← Str.slice s i (← usizeAdd i 2)
  (ofResult (u8FromStrRadix pair 16)).mapErr IntErrorKind.toString

def parseHexBytes [Target] [Profile] (s : Str) (expected : Nat) : Outcome String (List UInt8) := do
  let chars ← usizeMul expected 2
  rejectIf (Str.len s ≠ chars) s!"expected {chars} hex chars ({expected} bytes), got {Str.len s}"
  (rangeStepBy (Str.len s) 2).mapM (hexPair s)

/-- `parse_key` and `parse_salt`, but for the length. -/
def parseArr [Target] [Profile] (n : Nat) (s : Str) : Outcome String (Arr UInt8 n) := do
  let bytes ← parseHexBytes s n
  intoArr n bytes

def parseKey [Target] [Profile] (s : Str) : Outcome String (Arr UInt8 keyBytes) := parseArr keyBytes s

def parseSalt [Target] [Profile] (s : Str) : Outcome String (Arr UInt8 sessionSaltBytes) := parseArr sessionSaltBytes s

/-! ## The loop, pair by pair -/

/-- The text is exactly the hexadecimal digits of so many bytes. -/
def IsHexOf (s : Str) (n : Nat) : Prop := s.length = 2 * n ∧ ∀ c ∈ s, IsHex c

/-- Pairs that `u8::from_str_radix` takes: a digit or a plus sign, and a digit. -/
inductive Pairs : Str → Prop where
  | nil : Pairs []
  | cons {c d : Char} {s : Str} (hc : c = '+' ∨ IsHex c) (hd : IsHex d) (hs : Pairs s) : Pairs (c :: d :: s)

/-- The loop as a reading of the text from the front. -/
def readPairs : Nat → Str → Outcome String (List UInt8)
  | 0, _ => .ok []
  | n + 1, s =>
    match Str.splitAt? s 2 with
    | none => .panic
    | some (pair, rest) => do
      let b ← (ofResult (u8FromStrRadix pair 16)).mapErr IntErrorKind.toString
      let bytes ← readPairs n rest
      pure (b :: bytes)

theorem mapM_hexPair [Target] {front s : Str} {n : Nat} (hs : Str.len s = 2 * n)
    (hmax : Str.len (front ++ s) ≤ usizeMax) :
    (List.range' (Str.len front) n 2).mapM (hexPair (front ++ s)) = readPairs n s := by
  induction n generalizing front s with
  | zero => rfl
  | succ n ih =>
    have hfits : Str.len front + 2 ≤ usizeMax := by rw [Str.len_append] at hmax; omega
    rw [List.range'_succ, List.mapM_cons, hexPair, usizeAdd_ok hfits, ok_bind, Str.slice_append, readPairs]
    cases hsplit : Str.splitAt? s 2 with
    | none => rfl
    | some parts =>
      obtain ⟨pair, rest⟩ := parts
      obtain ⟨rfl, hpair⟩ := Str.splitAt?_eq_some.1 hsplit
      rw [Str.len_append] at hs
      rw [← List.append_assoc] at hmax
      have hloop := ih (by omega) hmax
      rw [Str.len_append, hpair, List.append_assoc] at hloop
      simp only [ok_bind, hloop]

theorem len_of_isHex {s : Str} (h : ∀ c ∈ s, IsHex c) : Str.len s = s.length := by
  induction s with
  | nil => rfl
  | cons c s ih =>
    obtain ⟨hc, hs⟩ := List.forall_mem_cons.1 h
    rw [Str.len_cons, hc.utf8Size, ih hs, List.length_cons, Nat.add_comm]

theorem utf8Size_of_taken {c : Char} (h : c = '+' ∨ IsHex c) : c.utf8Size = 1 := by
  rcases h with rfl | h
  · rfl
  · exact h.utf8Size

/-- Two bytes that `u8::from_str_radix` takes are two digits or a plus sign and a digit; a byte read from two
digits is written as them. -/
theorem pair_of_ok {pair : Str} {b : UInt8} (hlen : Str.len pair = 2) (h : u8FromStrRadix pair 16 = .ok b) :
    ∃ c d, pair = [c, d] ∧ (c = '+' ∨ IsHex c) ∧ IsHex d ∧
      (c ≠ '+' → ∀ bytes, hexEncode (b :: bytes) = c.toLower :: d.toLower :: hexEncode bytes) := by
  obtain ⟨n, hn, rfl⟩ := u8FromStrRadix_eq_ok.1 h
  obtain ⟨digits, hpair, hdenotes, -⟩ := (fromStrRadix_eq_ok (by omega)).1 hn
  have hhex : ∀ c ∈ digits, IsHex c := fun c hc => isHex_iff.2 (hdenotes.isDigit c hc)
  have hdigits := len_of_isHex hhex
  rcases hpair with rfl | rfl
  · obtain ⟨c, d, rfl⟩ := List.length_eq_two.1 (hdigits.symm.trans hlen)
    exact ⟨c, d, rfl, Or.inr (hhex c (by simp)), hhex d (by simp), fun _ => hexEncode_of_denotes hdenotes⟩
  · have hone : digits.length = 1 := by
      rw [Str.len_cons, hdigits] at hlen
      have hplus : '+'.utf8Size = 1 := rfl
      omega
    obtain ⟨d, rfl⟩ := List.length_eq_one_iff.1 hone
    exact ⟨'+', d, rfl, Or.inl rfl, hhex d (by simp), fun h => absurd rfl h⟩

theorem ok_of_pair {c d : Char} (hc : c = '+' ∨ IsHex c) (hd : IsHex d) : ∃ b, u8FromStrRadix [c, d] 16 = .ok b := by
  obtain ⟨y, hy⟩ := isHex_iff.1 hd
  have hylt := hy.2
  obtain ⟨n, hn⟩ : ∃ n, fromStrRadix 255 [c, d] 16 = .ok n := by
    rcases hc with rfl | hc
    · have hdenotes : Denotes 16 [d] y := ⟨by simp, [y], .cons hy .nil, by simp [value]⟩
      exact ⟨y, (fromStrRadix_eq_ok (by omega)).2 ⟨[d], Or.inr rfl, hdenotes, by omega⟩⟩
    · obtain ⟨x, hx⟩ := isHex_iff.1 hc
      have hxlt := hx.2
      have hdenotes : Denotes 16 [c, d] (x * 16 + y) := ⟨by simp, [x, y], .cons hx (.cons hy .nil), by simp [value]⟩
      exact ⟨x * 16 + y, (fromStrRadix_eq_ok (by omega)).2 ⟨[c, d], Or.inl rfl, hdenotes, by omega⟩⟩
  exact ⟨UInt8.ofNat n, u8FromStrRadix_eq_ok.2 ⟨n, hn, rfl⟩⟩

/-- What the loop returns is read from pairs; without a sign, they are the digits of what it returns. -/
theorem readPairs_of_ok {n : Nat} {s : Str} {v : List UInt8} (hs : Str.len s = 2 * n) (h : readPairs n s = .ok v) :
    Pairs s ∧ s.length = 2 * n ∧ v.length = n ∧ ('+' ∉ s → hexEncode v = s.map Char.toLower) := by
  induction n generalizing s v with
  | zero =>
    obtain rfl := Str.len_eq_zero.1 hs
    obtain rfl := ok.inj h
    exact ⟨.nil, rfl, rfl, fun _ => rfl⟩
  | succ n ih =>
    rw [readPairs] at h
    cases hsplit : Str.splitAt? s 2 with
    | none =>
      rw [hsplit] at h
      contradiction
    | some parts =>
      obtain ⟨pair, rest⟩ := parts
      obtain ⟨rfl, hpair⟩ := Str.splitAt?_eq_some.1 hsplit
      rw [Str.len_append] at hs
      rw [hsplit] at h
      obtain ⟨b, hb, h⟩ := bind_eq_ok.1 h
      obtain ⟨bytes, hbytes, h⟩ := bind_eq_ok.1 h
      obtain rfl := ok.inj h
      obtain ⟨c, d, rfl, hc, hd, hwrite⟩ := pair_of_ok hpair (ofResult_eq_ok.1 (mapErr_eq_ok.1 hb))
      obtain ⟨hpairs, hlength, hbytes', hencode⟩ := ih (by omega) hbytes
      refine ⟨.cons hc hd hpairs, by simp [hlength]; omega, by simp [hbytes'], fun hplus => ?_⟩
      have hplus' : '+' ∉ rest := fun hmem => hplus (List.mem_append_right _ hmem)
      have hne : c ≠ '+' := by
        rintro rfl
        exact hplus (List.mem_cons_self ..)
      rw [hwrite hne, hencode hplus']
      rfl

/-- The loop goes on behind a pair that is taken. -/
theorem readPairs_cons {c d : Char} (hc : c = '+' ∨ IsHex c) (hd : IsHex d) (n : Nat) (s : Str) :
    ∃ b, readPairs (n + 1) (c :: d :: s) = readPairs n s >>= fun bytes => .ok (b :: bytes) := by
  obtain ⟨b, hb⟩ := ok_of_pair hc hd
  have hlen : Str.len [c, d] = 2 := by simp [utf8Size_of_taken hc, hd.utf8Size]
  have hsplit : Str.splitAt? (c :: d :: s) 2 = some ([c, d], s) := Str.splitAt?_eq_some.2 ⟨rfl, hlen⟩
  refine ⟨b, ?_⟩
  simp only [readPairs, hsplit, hb, ofResult, mapErr_ok, ok_bind, pure_eq]

theorem len_of_pair {c d : Char} (hc : c = '+' ∨ IsHex c) (hd : IsHex d) (s : Str) :
    Str.len (c :: d :: s) = Str.len s + 2 := by
  rw [Str.len_cons, Str.len_cons, utf8Size_of_taken hc, hd.utf8Size]
  omega

/-- Pairs are read to the end. -/
theorem readPairs_pairs {n : Nat} {s : Str} (hs : Str.len s = 2 * n) (h : Pairs s) : ∃ v, readPairs n s = .ok v := by
  induction h generalizing n with
  | nil =>
    obtain rfl : n = 0 := by rw [Str.len_nil] at hs; omega
    exact ⟨[], rfl⟩
  | cons hc hd _ ih =>
    rw [len_of_pair hc hd] at hs
    obtain ⟨m, rfl⟩ : ∃ m, n = m + 1 := ⟨n - 1, by omega⟩
    obtain ⟨v, hv⟩ := @ih m (by omega)
    obtain ⟨b, hb⟩ := readPairs_cons hc hd m _
    exact ⟨b :: v, by rw [hb, hv, ok_bind]⟩

/-- Pairs of the text, and behind them a character that the next two bytes cut. -/
def CutBehindPairs (s : Str) : Prop :=
  ∃ pairs rest, s = pairs ++ rest ∧ Pairs pairs ∧ rest ≠ [] ∧ ¬Str.IsCharBoundary rest 2

theorem cut_of_readPairs {n : Nat} {s : Str} (hs : Str.len s = 2 * n) (h : readPairs n s = .panic) : CutBehindPairs s := by
  induction n generalizing s with
  | zero => contradiction
  | succ n ih =>
    cases hsplit : Str.splitAt? s 2 with
    | none =>
      refine ⟨[], s, rfl, .nil, ?_, Str.not_isCharBoundary.2 hsplit⟩
      rintro rfl
      contradiction
    | some parts =>
      obtain ⟨pair, rest⟩ := parts
      obtain ⟨rfl, hpair⟩ := Str.splitAt?_eq_some.1 hsplit
      rw [Str.len_append] at hs
      rw [readPairs, hsplit] at h
      rcases bind_eq_panic.1 h with hpanic | ⟨b, hb, hloop⟩
      · exact absurd (mapErr_eq_panic.1 hpanic) (ofResult_ne_panic _)
      · obtain ⟨c, d, rfl, hc, hd, -⟩ := pair_of_ok hpair (ofResult_eq_ok.1 (mapErr_eq_ok.1 hb))
        rcases bind_eq_panic.1 hloop with hrest | ⟨bytes, -, hpure⟩
        · obtain ⟨pairs, rest', rfl, hpairs, hcut⟩ := ih (by omega) hrest
          exact ⟨c :: d :: pairs, rest', rfl, .cons hc hd hpairs, hcut⟩
        · contradiction

theorem readPairs_of_cut {n : Nat} {pairs rest : Str} (hs : Str.len (pairs ++ rest) = 2 * n) (hpairs : Pairs pairs)
    (hne : rest ≠ []) (hcut : ¬Str.IsCharBoundary rest 2) : readPairs n (pairs ++ rest) = .panic := by
  induction hpairs generalizing n with
  | nil =>
    have hrest : Str.len rest ≠ 0 := fun h => hne (Str.len_eq_zero.1 h)
    obtain ⟨m, rfl⟩ : ∃ m, n = m + 1 := by
      rw [List.nil_append] at hs
      exact ⟨n - 1, by omega⟩
    rw [List.nil_append, readPairs, Str.not_isCharBoundary.1 hcut]
  | cons hc hd _ ih =>
    rw [List.cons_append, List.cons_append, len_of_pair hc hd] at hs
    obtain ⟨m, rfl⟩ : ∃ m, n = m + 1 := ⟨n - 1, by omega⟩
    obtain ⟨b, hb⟩ := readPairs_cons hc hd m _
    rw [List.cons_append, List.cons_append, hb, ih (by omega)]
    rfl

/-- The loop panics exactly at a character that is cut behind some pairs. -/
theorem readPairs_eq_panic {n : Nat} {s : Str} (hs : Str.len s = 2 * n) :
    readPairs n s = .panic ↔ CutBehindPairs s := by
  constructor
  · exact cut_of_readPairs hs
  · rintro ⟨pairs, rest, rfl, hpairs, hne, hcut⟩
    exact readPairs_of_cut hs hpairs hne hcut

theorem readPairs_isErr_iff {n : Nat} {s : Str} (hs : Str.len s = 2 * n) :
    (readPairs n s).IsErr ↔ ¬Pairs s ∧ ¬CutBehindPairs s := by
  rw [isErr_iff, ne_eq, readPairs_eq_panic hs]
  constructor
  · rintro ⟨hcut, hok⟩
    refine ⟨fun hpairs => ?_, hcut⟩
    obtain ⟨v, hv⟩ := readPairs_pairs hs hpairs
    exact hok v hv
  · rintro ⟨hpairs, hcut⟩
    exact ⟨hcut, fun v hv => hpairs (readPairs_of_ok hs hv).1⟩

/-! ## The whole function -/

theorem not_isHex_plus : ¬IsHex '+' := by decide

theorem Pairs.isHex {s : Str} (h : Pairs s) (hplus : '+' ∉ s) : ∀ c ∈ s, IsHex c := by
  induction h with
  | nil => simp
  | @cons c d s hc hd _ ih =>
    have hne : c ≠ '+' := by
      rintro rfl
      exact hplus (List.mem_cons_self ..)
    have hrest : '+' ∉ s := fun hmem => hplus (List.mem_cons_of_mem _ (List.mem_cons_of_mem _ hmem))
    exact List.forall_mem_cons.2 ⟨hc.resolve_left hne, List.forall_mem_cons.2 ⟨hd, ih hrest⟩⟩

theorem IsHexOf.pairs {s : Str} {n : Nat} (h : IsHexOf s n) : Pairs s := by
  obtain ⟨hlength, hhex⟩ := h
  induction n generalizing s with
  | zero =>
    obtain rfl := List.eq_nil_of_length_eq_zero hlength
    exact .nil
  | succ n ih =>
    match s, hlength, hhex with
    | c :: d :: s, hlength, hhex =>
      obtain ⟨hc, hhex⟩ := List.forall_mem_cons.1 hhex
      obtain ⟨hd, hhex⟩ := List.forall_mem_cons.1 hhex
      exact .cons (Or.inr hc) hd (ih (by simp at hlength; omega) hhex)

theorem IsHexOf.not_plus {s : Str} {n : Nat} (h : IsHexOf s n) : '+' ∉ s := fun hmem => not_isHex_plus (h.2 _ hmem)

section Whole

variable [Target] [Profile] {s : Str} {expected chars : Nat}

theorem parseHexBytes_of_len_ne (hmul : (usizeMul expected 2 : Outcome String Nat) = .ok chars) (hlen : Str.len s ≠ chars) :
    (parseHexBytes s expected).IsErr := by
  unfold parseHexBytes
  rw [hmul, ok_bind, rejectIf_pos hlen]
  exact ⟨_, rfl⟩

theorem parseHexBytes_of_len {n : Nat} (hmul : (usizeMul expected 2 : Outcome String Nat) = .ok chars)
    (hlen : Str.len s = chars) (hn : chars = 2 * n) (hmax : Str.len s ≤ usizeMax) :
    parseHexBytes s expected = readPairs n s := by
  have hloop := @mapM_hexPair _ [] s n (hlen.trans hn) hmax
  have hrange : rangeStepBy (Str.len s) 2 = List.range' 0 n 2 := by
    rw [rangeStepBy, hlen, hn]
    congr 1
    omega
  unfold parseHexBytes
  rw [hmul, ok_bind, rejectIf_neg (not_not.2 hlen), ok_bind, hrange]
  exact hloop

end Whole

/-! ## Keys and salts -/

section Arrays

variable [Target] [Profile] {n : Nat} {s : Str}

theorem length_of_parseHexBytes (hn : n * 2 ≤ usizeMax) {v : List UInt8} (h : parseHexBytes s n = .ok v) :
    v.length = n := by
  by_cases hlen : Str.len s = n * 2
  · rw [parseHexBytes_of_len (usizeMul_ok hn) hlen (Nat.mul_comm n 2) (hlen ▸ hn)] at h
    exact (readPairs_of_ok (by omega) h).2.2.1
  · obtain ⟨e, he⟩ := parseHexBytes_of_len_ne (usizeMul_ok hn) hlen
    rw [he] at h
    contradiction

theorem parseArr_eq_ok (hn : n * 2 ≤ usizeMax) {a : Arr UInt8 n} : parseArr n s = .ok a ↔ parseHexBytes s n = .ok a.1 := by
  unfold parseArr
  rw [bind_eq_ok]
  constructor
  · rintro ⟨v, hv, ha⟩
    rw [intoArr_ok (length_of_parseHexBytes hn hv)] at ha
    rw [hv, ← ok.inj ha]
  · exact fun h => ⟨a.1, h, intoArr_ok a.2⟩

/-- The `try_into().unwrap()` of a key or a salt never fails. -/
theorem parseArr_eq_panic (hn : n * 2 ≤ usizeMax) : parseArr n s = .panic ↔ parseHexBytes s n = .panic := by
  unfold parseArr
  rw [bind_eq_panic]
  constructor
  · rintro (h | ⟨v, hv, h⟩)
    · exact h
    · rw [intoArr_ok (length_of_parseHexBytes hn hv)] at h
      contradiction
  · exact Or.inl

end Arrays

/-! ## When the reading is exact -/

/-- The text is read exactly: its bytes where it is what is asked for, and an `Err` anywhere else. -/
def ParsesExactly [Target] [Profile] (s : Str) (expected : Nat) : Prop :=
  (IsHexOf s expected →
    ∃ v, parseHexBytes s expected = .ok v ∧ v.length = expected ∧ hexEncode v = s.map Char.toLower) ∧
  (¬IsHexOf s expected → (parseHexBytes s expected).IsErr)

/-- Where the function goes wrong: on a sign, on a cut character, and where twice the length overflows. -/
def Slips [Target] [Profile] (s : Str) (expected : Nat) : Prop :=
  if expected * 2 ≤ usizeMax then Str.len s = expected * 2 ∧ (Pairs s ∧ '+' ∈ s ∨ CutBehindPairs s)
  else
    Profile.overflowChecks = true ∨
      Str.len s = expected * 2 % 2 ^ Target.usizeBits ∧ (Pairs s ∨ CutBehindPairs s)

/-- A text of hexadecimal digits has the length asked for. -/
theorem IsHexOf.len {s : Str} {n : Nat} (h : IsHexOf s n) : Str.len s = 2 * n := by
  rw [len_of_isHex h.2, h.1]

section Exactly

variable [Target] [Profile] {s : Str} {expected : Nat}

/-- Where the length is right, the loop decides. -/
theorem parses_exactly_of_readPairs (hs : Str.len s = 2 * expected) (h : parseHexBytes s expected = readPairs expected s) :
    ParsesExactly s expected ↔ ¬(Pairs s ∧ '+' ∈ s ∨ CutBehindPairs s) := by
  unfold ParsesExactly
  rw [h]
  constructor
  · rintro ⟨hok, herr⟩ (⟨hpairs, hplus⟩ | hcut)
    · have hnot : ¬IsHexOf s expected := fun hhex => hhex.not_plus hplus
      exact ((readPairs_isErr_iff hs).1 (herr hnot)).1 hpairs
    · rw [(readPairs_eq_panic hs).2 hcut] at hok herr
      by_cases hhex : IsHexOf s expected
      · obtain ⟨v, hv, -⟩ := hok hhex
        contradiction
      · obtain ⟨e, he⟩ := herr hhex
        contradiction
  · intro hslip
    constructor
    · intro hhex
      obtain ⟨v, hv⟩ := readPairs_pairs hs hhex.pairs
      obtain ⟨-, -, hlength, hencode⟩ := readPairs_of_ok hs hv
      exact ⟨v, hv, hlength, hencode hhex.not_plus⟩
    · intro hnot
      refine (readPairs_isErr_iff hs).2 ⟨fun hpairs => ?_, fun hcut => hslip (Or.inr hcut)⟩
      have hplus : '+' ∉ s := fun hmem => hslip (Or.inl ⟨hpairs, hmem⟩)
      obtain ⟨v, hv⟩ := readPairs_pairs hs hpairs
      exact hnot ⟨(readPairs_of_ok hs hv).2.1, hpairs.isHex hplus⟩

/-- A text that is not what is asked for is to be rejected. -/
theorem parses_exactly_of_not_isHexOf (h : ¬IsHexOf s expected) :
    ParsesExactly s expected ↔ (parseHexBytes s expected).IsErr := by
  constructor
  · exact fun hexact => hexact.2 h
  · exact fun herr => ⟨fun hhex => absurd hhex h, fun _ => herr⟩

/-- Where twice the length fits, it is compared as it is. -/
theorem parses_exactly_of_fits (hfits : expected * 2 ≤ usizeMax) (hmax : Str.len s ≤ usizeMax) :
    ParsesExactly s expected ↔ ¬(Str.len s = expected * 2 ∧ (Pairs s ∧ '+' ∈ s ∨ CutBehindPairs s)) := by
  by_cases hlen : Str.len s = expected * 2
  · have hread := parseHexBytes_of_len (usizeMul_ok hfits) hlen (Nat.mul_comm expected 2) hmax
    rw [parses_exactly_of_readPairs (by omega) hread]
    simp only [hlen, true_and]
  · have hnot : ¬IsHexOf s expected := fun hhex => hlen (by rw [hhex.len]; omega)
    rw [parses_exactly_of_not_isHexOf hnot]
    exact iff_of_true (parseHexBytes_of_len_ne (usizeMul_ok hfits) hlen) fun hslip => hlen hslip.1

/-- Where it overflows, the product panics, or its low bits are compared. -/
theorem parseHexBytes_isErr_of_overflow (hfits : ¬expected * 2 ≤ usizeMax) (hmax : Str.len s ≤ usizeMax) :
    (parseHexBytes s expected).IsErr ↔
      ¬(Profile.overflowChecks = true ∨
        Str.len s = expected * 2 % 2 ^ Target.usizeBits ∧ (Pairs s ∨ CutBehindPairs s)) := by
  by_cases hchecks : Profile.overflowChecks = true
  · refine iff_of_false ?_ (not_not.2 (Or.inl hchecks))
    rintro ⟨e, he⟩
    rw [parseHexBytes, usizeMul_panics hfits hchecks] at he
    contradiction
  · have hmul := @usizeMul_wraps String _ _ _ _ hfits hchecks
    rw [or_iff_right hchecks]
    by_cases hlen : Str.len s = expected * 2 % 2 ^ Target.usizeBits
    · obtain ⟨n, hn⟩ := two_dvd_mul_two_mod expected
      rw [parseHexBytes_of_len hmul hlen hn hmax, readPairs_isErr_iff (hlen.trans hn), ← not_or]
      simp only [hlen, true_and]
    · exact iff_of_true (parseHexBytes_of_len_ne hmul hlen) fun hslip => hlen hslip.1

end Exactly

/-- A text is read exactly unless it has the bytes asked for and is made of pairs with a sign among them, or
has a character that the loop cuts behind such pairs. Where twice the length asked for overflows, the
function panics, or takes the low bits of it for the length. -/
theorem parses_exactly_iff [Target] [Profile] {s : Str} (expected : Nat) (hs : Str.len s ≤ isizeMax) :
    ParsesExactly s expected ↔ ¬Slips s expected := by
  have hmax : Str.len s ≤ usizeMax := hs.trans isizeMax_le_usizeMax
  unfold Slips
  split_ifs with hfits
  · exact parses_exactly_of_fits hfits hmax
  · -- no text has so many bytes
    have hnot : ¬IsHexOf s expected := by
      intro hhex
      have hlen := hhex.len
      omega
    rw [parses_exactly_of_not_isHexOf hnot]
    exact parseHexBytes_isErr_of_overflow hfits hmax

/-- Two digits, and nothing that slips. -/
theorem parses_exactly_iff_digits : @ParsesExactly target64 devProfile ['A', '5'] 1 := by
  refine (@parses_exactly_iff target64 devProfile _ 1 (by decide)).2 fun hslip => ?_
  unfold Slips at hslip
  rw [if_pos (by decide)] at hslip
  rcases hslip.2 with ⟨-, hplus⟩ | hcut
  · exact absurd hplus (by decide)
  · have hpanic := (@readPairs_eq_panic 1 ['A', '5'] rfl).2 hcut
    exact absurd hpanic (by decide)

/-- Signs stand for half a salt, and a character of two bytes at an odd offset makes the loop panic. -/
theorem parseHexBytes_slips :
    @parseHexBytes target64 devProfile (List.replicate 16 ['+', 'f']).flatten 16 = .ok (List.replicate 16 0x0F) ∧
      ¬IsHexOf (List.replicate 16 ['+', 'f']).flatten 16 ∧
      @parseHexBytes target64 devProfile ['a', 'é', 'b'] 2 = .panic := by
  refine ⟨by decide, fun h => h.not_plus (by decide), by decide⟩

end KeyboardProject.HostSim
