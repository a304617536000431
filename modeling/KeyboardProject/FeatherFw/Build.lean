/-
The flash layout of the Feather firmware (`firmware/feather-fw/build.rs`): `read_info_file` looks for two
lines in the bootloader's `INFO_UF2.TXT`. A line without a colon makes it give up.
-/
import KeyboardProject.Rust.Parse

namespace KeyboardProject.FeatherFw

open Rust Numeral

def parseHexU32 (val : Str) : Option UInt32 :=
  let trimmed := Str.trim val
  match (Str.stripPrefix "0x".toList trimmed).or (Str.stripPrefix "0X".toList trimmed) with
  | some stripped => (u32FromStrRadix stripped 16).toOption
  | none => (u32Parse trimmed).toOption

/-- The variables of the loop of `read_info_file`. -/
structure Found where
  appStart : Option UInt32
  flashSize : Option UInt32
  deriving DecidableEq, Repr

def appStartKey : Str := "App start".toList
def flashSizeKey : Str := "Flash size".toList

/-- One turn of the loop. Its `?` leave the whole function. -/
def readLine (found : Found) (line : Str) : Option Found := do
  let parts := Str.splitn2 ':' line
  let key := Str.trim (← parts[0]?)
  let val := Str.trim (← parts[1]?)
  if key = appStartKey then pure { found with appStart := parseHexU32 val }
  else if key = flashSizeKey then pure { found with flashSize := parseHexU32 val }
  else pure found

/-- `contents` is what `fs::read_to_string(path).ok()` gives. -/
def readInfoFile (contents : Option Str) : Option (UInt32 × UInt32) := do
  let txt ← contents
  let found ← (Str.lines txt).foldlM readLine { appStart := none, flashSize := none }
  match found.appStart, found.flashSize with
  | some app, some flash => pure (app, flash)
  | _, _ => none

/-! ## What a line says -/

/-- The text of a line ahead of its first colon. -/
def keyOf (line : Str) : Str := Str.trim (line.takeWhile (· != ':'))

/-- The text of a line behind its first colon. -/
def valOf (line : Str) : Str := Str.trim (line.dropWhile (· != ':')).tail

/-- `num` is a decimal numeral, or a hexadecimal one behind `0x`. -/
def Writes (num : Str) (value : UInt32) : Prop :=
  Denotes 10 num value.toNat ∨ ∃ x digits, (x = 'x' ∨ x = 'X') ∧ num = '0' :: x :: digits ∧ Denotes 16 digits value.toNat

/-- Whitespace that a line can have around its key and its value. -/
def Spaces (s : Str) : Prop := ∀ c ∈ s, Str.isWhitespace c

instance : DecidablePred Spaces := fun s => List.decidableBAll (fun c => Str.isWhitespace c = true) s

/-- The line is `key: num`, with any spaces around. -/
def Says (key : Str) (value : UInt32) (line : Str) : Prop :=
  ∃ s₁ s₂ s₃ s₄ num, Spaces s₁ ∧ Spaces s₂ ∧ Spaces s₃ ∧ Spaces s₄ ∧ Writes num value ∧
    line = s₁ ++ key ++ s₂ ++ ':' :: (s₃ ++ num ++ s₄)

/-- Of the lines that use the key there is one, and it says the value. -/
def SaysOnce (key : Str) (value : UInt32) (txt : Str) : Prop :=
  ∃ line, (Str.lines txt).filter (fun line => keyOf line = key) = [line] ∧ Says key value line

/-! ## One line -/

/-- What a line with a colon does to the variables. -/
def Found.set (found : Found) (line : Str) : Found :=
  if keyOf line = appStartKey then { found with appStart := parseHexU32 (valOf line) }
  else if keyOf line = flashSizeKey then { found with flashSize := parseHexU32 (valOf line) }
  else found

theorem readLine_of_mem (found : Found) {line : Str} (h : ':' ∈ line) : readLine found line = some (found.set line) := by
  unfold readLine Found.set
  rw [Str.splitn2_of_mem h]
  show (if keyOf line = appStartKey then some { found with appStart := parseHexU32 (valOf line) }
    else if keyOf line = flashSizeKey then some { found with flashSize := parseHexU32 (valOf line) }
    else some found) = _
  split_ifs <;> rfl

/-- A line without a colon ends the search. -/
theorem readLine_of_not_mem (found : Found) {line : Str} (h : ':' ∉ line) : readLine found line = none := by
  unfold readLine
  rw [Str.splitn2_of_not_mem h]
  rfl

/-! ## Reading a number -/

/-- Digits and the `x` of a prefix are no whitespace. -/
theorem not_isWhitespace_of_letter {c : Char} (h : 48 ≤ c.toNat ∧ c.toNat ≤ 122) : ¬Str.isWhitespace c := by
  simp only [Str.isWhitespace, Bool.or_eq_true, Bool.and_eq_true, decide_eq_true_eq]
  omega

theorem not_isWhitespace_of_isDigit {radix d : Nat} {c : Char} (h : IsDigit radix c d) : ¬Str.isWhitespace c := by
  have := digit?_eq_some.1 h.1
  exact not_isWhitespace_of_letter (by omega)

theorem Writes.trim {num : Str} {value : UInt32} (h : Writes num value) : Str.trim num = num := by
  apply Str.trim_of_not_whitespace
  rcases h with hdec | ⟨x, digits, hx, rfl, hhex⟩
  · intro c hc
    obtain ⟨d, hd⟩ := hdec.isDigit c hc
    exact not_isWhitespace_of_isDigit hd
  · have hrest : ∀ c ∈ digits, ¬Str.isWhitespace c := fun c hc =>
      have ⟨_, hd⟩ := hhex.isDigit c hc
      not_isWhitespace_of_isDigit hd
    refine List.forall_mem_cons.2 ⟨by decide, List.forall_mem_cons.2 ⟨?_, hrest⟩⟩
    rcases hx with rfl | rfl <;> decide

/-- The digits of a decimal numeral do not begin with the prefix of a hexadecimal one. -/
theorem stripPrefix_of_decimal {num : Str} {n : Nat} (h : Denotes 10 num n) {x : Char} (hx : digit? x = some 33) :
    Str.stripPrefix ['0', x] num = none := by
  cases hstrip : Str.stripPrefix ['0', x] num with
  | none => rfl
  | some rest =>
    obtain rfl := Str.eq_of_stripPrefix hstrip
    obtain ⟨d, hd, hlt⟩ := h.isDigit x (by simp)
    rw [hx] at hd
    obtain rfl := Option.some.inj hd
    omega

theorem parseHexU32_of_writes {num : Str} {value : UInt32} (h : Writes num value) : parseHexU32 num = some value := by
  have htrim := h.trim
  unfold parseHexU32
  rw [htrim]
  dsimp only
  rcases h with hdec | ⟨x, digits, hx, rfl, hhex⟩
  · have hlower : Str.stripPrefix "0x".toList num = none := stripPrefix_of_decimal hdec rfl
    have hupper : Str.stripPrefix "0X".toList num = none := stripPrefix_of_decimal hdec rfl
    rw [hlower, hupper, u32Parse, Option.or_none]
    exact congrArg Except.toOption (u32FromStrRadix_of_denotes (by omega) hdec)
  · have hstrip : (Str.stripPrefix "0x".toList ('0' :: x :: digits)).or (Str.stripPrefix "0X".toList ('0' :: x :: digits)) =
        some digits := by
      rcases hx with rfl | rfl <;> rfl
    rw [hstrip]
    exact congrArg Except.toOption (u32FromStrRadix_of_denotes (by omega) hhex)

/-- The value of a line that says one. -/
theorem parseHexU32_of_says {key line : Str} {value : UInt32} (hkey : ':' ∉ key) (h : Says key value line) :
    parseHexU32 (valOf line) = some value := by
  obtain ⟨s₁, s₂, s₃, s₄, num, h₁, h₂, h₃, h₄, hnum, rfl⟩ := h
  have hspace : ∀ {s : Str}, Spaces s → ':' ∉ s := fun hs hmem => absurd (hs ':' hmem) (by decide)
  have hfront : ∀ c ∈ s₁ ++ key ++ s₂, c != ':' := by
    intro c hc
    rw [bne_iff_ne]
    rintro rfl
    simp only [List.mem_append] at hc
    rcases hc with (hc | hc) | hc
    · exact hspace h₁ hc
    · exact hkey hc
    · exact hspace h₂ hc
  have hval : valOf (s₁ ++ key ++ s₂ ++ ':' :: (s₃ ++ num ++ s₄)) = num := by
    rw [valOf, List.dropWhile_append_of_pos hfront]
    exact (Str.trim_pad h₃ h₄ num).trans hnum.trim
  rw [hval]
  exact parseHexU32_of_writes hnum

/-! ## The whole file -/

/-- The loop reaches the end of the file exactly when every line has a colon. -/
theorem foldlM_readLine (lines : List Str) (found : Found) :
    lines.foldlM readLine found = if ∀ line ∈ lines, ':' ∈ line then some (lines.foldl Found.set found) else none := by
  induction lines generalizing found with
  | nil => rfl
  | cons line lines ih =>
    rw [List.foldlM_cons]
    by_cases hline : ':' ∈ line
    · rw [readLine_of_mem found hline]
      simp only [List.forall_mem_cons, hline, true_and]
      exact ih _
    · rw [readLine_of_not_mem found hline, if_neg fun hall => hline (hall line (List.mem_cons_self ..))]
      rfl

theorem flashSizeKey_ne : flashSizeKey ≠ appStartKey := by decide

/-- Each variable is set by the lines that use its key. -/
theorem foldl_set (lines : List Str) (found : Found) :
    lines.foldl Found.set found =
      { appStart := (lines.filter fun line => keyOf line = appStartKey).foldl (fun _ line => parseHexU32 (valOf line))
          found.appStart
        flashSize := (lines.filter fun line => keyOf line = flashSizeKey).foldl (fun _ line => parseHexU32 (valOf line))
          found.flashSize } := by
  induction lines generalizing found with
  | nil => rfl
  | cons line lines ih =>
    rw [List.foldl_cons, ih, List.filter_cons, List.filter_cons, Found.set]
    by_cases happ : keyOf line = appStartKey
    · simp [happ, flashSizeKey_ne.symm]
    · by_cases hflash : keyOf line = flashSizeKey
      · simp [hflash, flashSizeKey_ne]
      · simp [happ, hflash]

/-- A line that says a value is the one that sets its variable. -/
theorem SaysOnce.foldl {key txt : Str} {value : UInt32} (hkey : ':' ∉ key) (h : SaysOnce key value txt)
    (start : Option UInt32) :
    ((Str.lines txt).filter fun line => keyOf line = key).foldl (fun _ line => parseHexU32 (valOf line)) start =
      some value := by
  obtain ⟨line, honly, hsays⟩ := h
  rw [honly]
  exact parseHexU32_of_says hkey hsays

/-- The layout is found in a file that has it exactly when every line of the file has a colon. -/
theorem readInfoFile_finds_iff {txt : Str} {app flash : UInt32} (happ : SaysOnce appStartKey app txt)
    (hflash : SaysOnce flashSizeKey flash txt) :
    readInfoFile (some txt) = some (app, flash) ↔ ∀ line ∈ Str.lines txt, ':' ∈ line := by
  have hloop := foldlM_readLine (Str.lines txt) { appStart := none, flashSize := none }
  rw [foldl_set, happ.foldl (by decide), hflash.foldl (by decide)] at hloop
  unfold readInfoFile
  rw [Option.bind_eq_bind, Option.bind_some, hloop]
  split_ifs with hall
  · exact iff_of_true rfl hall
  · exact iff_of_false nofun hall

/-- The common way to write a line. -/
theorem says_plain {num : Str} {value : UInt32} (key : Str) (h : Writes num value) : Says key value (key ++ ':' :: ' ' :: num) :=
  ⟨[], [], [' '], [], num, by decide, by decide, by decide, by decide, h, by simp⟩

theorem writes_hex : Writes "0x26000".toList 0x26000 :=
  Or.inr ⟨'x', "26000".toList, Or.inl rfl, rfl, by decide, [2, 6, 0, 0, 0], by decide, rfl⟩

theorem writes_decimal : Writes "1048576".toList 0x100000 :=
  Or.inl ⟨by decide, [1, 0, 4, 8, 5, 7, 6], by decide, rfl⟩

/-- A file in which every line has a colon, the two lines in the other order and with spaces. -/
theorem readInfoFile_finds_feather :
    readInfoFile (some "Model: Feather: nRF52840\r\nFlash size : 1048576\nApp start:\t0x26000 \n".toList) =
      some (0x26000, 0x100000) := by
  have happ : Says appStartKey 0x26000 "App start:\t0x26000 ".toList :=
    ⟨[], [], ['\t'], [' '], _, by decide, by decide, by decide, by decide, writes_hex, rfl⟩
  have hflash : Says flashSizeKey 0x100000 "Flash size : 1048576".toList :=
    ⟨[], [' '], [' '], [], _, by decide, by decide, by decide, by decide, writes_decimal, rfl⟩
  exact (readInfoFile_finds_iff ⟨_, by decide, happ⟩ ⟨_, by decide, hflash⟩).2 (by decide)

/-- A title without a colon ends the search: the layout behind it is not found. -/
theorem readInfoFile_stops_at_title :
    SaysOnce appStartKey 0x26000 "UF2 Bootloader\nApp start: 0x26000\nFlash size: 1048576\n".toList ∧
      SaysOnce flashSizeKey 0x100000 "UF2 Bootloader\nApp start: 0x26000\nFlash size: 1048576\n".toList ∧
      readInfoFile (some "UF2 Bootloader\nApp start: 0x26000\nFlash size: 1048576\n".toList) = none := by
  have happ := says_plain appStartKey writes_hex
  have hflash := says_plain flashSizeKey writes_decimal
  exact ⟨⟨_, by decide, happ⟩, ⟨_, by decide, hflash⟩, by decide⟩

end KeyboardProject.FeatherFw
