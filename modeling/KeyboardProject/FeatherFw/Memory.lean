/-
The linker script of the Feather firmware (`main` of `firmware/feather-fw/build.rs`). The flash layout comes from
two variables of the environment or from the bootloader's info file, and is written to `memory.x`. What the linker
reads there is that layout.
-/
import KeyboardProject.FeatherFw.Build
import KeyboardProject.Rust.Fmt

namespace KeyboardProject.FeatherFw

open Rust Rust.Outcome Numeral

/-! ## The script -/

/-- What the script finds: `env::var(..).ok()`, `fs::read_to_string(..).ok()`, and the paths that `fs::write`
can write. -/
structure Env where
  var : Str → Option Str
  readToString : Str → Option Str
  canWrite : Str → Bool

/-- `PathBuf::join`. -/
def join (path part : Str) : Str :=
  if part.head? = some '/' then part
  else if path.getLast? = some '/' ∨ path = [] then path ++ part
  else path ++ '/' :: part

def infoName : Str := "FTHR840BOOT/INFO_UF2.TXT".toList

def candidateInfoPaths (env : Env) : List Str :=
  (env.var "UF2_INFO_PATH".toList).toList ++
    match env.var "USER".toList with
    | some user => ["/media".toList, "/run/media".toList].flatMap fun root =>
        [join (join root user) infoName, join (join root user) (infoName.map Char.toLower)]
    | none => []

/-- A variable that holds a number. -/
def Env.hexU32 (env : Env) (key : String) : Option UInt32 := (env.var key.toList).bind parseHexU32

/-- Why the script exits with 1. -/
inductive Refusal where
  | noLayout
  | appAboveFlash (appStart flashSize : UInt32)
  deriving DecidableEq, Repr

/-- What it says on `stderr`. -/
def Refusal.text : Refusal → Str
  | .noLayout =>
    "Set APP_BASE and FLASH_SIZE from INFO_UF2.TXT (or UF2_INFO_PATH) before building.\n".toList ++
      "Example: APP_BASE=0x26000 FLASH_SIZE=0x100000 cargo build --release".toList
  | .appAboveFlash appStart flashSize =>
    "APP_BASE (".toList ++ fmtPrefixedHex 0 appStart.toNat ++ ") must be below FLASH_SIZE (".toList ++
      fmtPrefixedHex 0 flashSize.toNat ++ "); check INFO_UF2.TXT.".toList

/-- The first candidate that has a layout. -/
def fromInfo (env : Env) : Option ((UInt32 × UInt32) × Str) :=
  (candidateInfoPaths env).findSome? fun p => (readInfoFile (env.readToString p)).map fun vals => (vals, p)

def chooseLayout (env : Env) : Outcome Refusal ((UInt32 × UInt32) × Str) :=
  match env.hexU32 "APP_BASE", env.hexU32 "FLASH_SIZE", fromInfo env with
  | some app, some flash, _ => .ok ((app, flash), "environment (APP_BASE/FLASH_SIZE)".toList)
  | none, none, some ((app, flash), path) => .ok ((app, flash), "INFO_UF2.TXT at ".toList ++ path)
  | _, _, _ => .err .noLayout

/-- A line of the script that gives a region. -/
def regionLine (name : Str) (origin length : UInt32) : Str :=
  name ++ " : ORIGIN = ".toList ++ fmtPrefixedHex 10 origin.toNat ++ ", LENGTH = ".toList ++ fmtPrefixedHex 10 length.toNat

/-- The text of `memory.x`. -/
def memoryText (source : Str) (appStart flashLen ramBase ramSize : UInt32) : Str :=
  "/* auto-generated by build.rs using ".toList ++ source ++ " */\n".toList ++ "MEMORY \x7b\n".toList ++
    regionLine "FLASH".toList appStart flashLen ++ '\n' :: regionLine "RAM".toList ramBase ramSize ++ '\n' :: "\x7d\n".toList

def memoryX (env : Env) : Outcome Refusal Str := do
  let ((appStart, flashSize), source) ← chooseLayout env
  rejectIf (appStart ≥ flashSize) (.appAboveFlash appStart flashSize)
  let ramBase := (env.hexU32 "RAM_BASE").getD 0x20000000
  let ramSize := (env.hexU32 "RAM_SIZE").getD 0x00040000
  let flashLen ← u32Sub flashSize appStart
  pure (memoryText source appStart flashLen ramBase ramSize)

/-- The files that the script has written when it ends, and how it ends. -/
def main (env : Env) : List (Str × Str) × Outcome Refusal Unit :=
  match memoryX env with
  | .err e => ([], .err e)
  | .panic => ([], .panic)
  | .ok memory =>
    match env.var "CARGO_MANIFEST_DIR".toList, env.var "OUT_DIR".toList with
    | some manifestDir, some outDir =>
      let rootPath := join manifestDir "memory.x".toList
      let outPath := join outDir "memory.x".toList
      if env.canWrite rootPath = false then ([], .panic)
      else if env.canWrite outPath = false then ([(rootPath, memory)], .panic)
      else ([(rootPath, memory), (outPath, memory)], .ok ())
    | _, _ => ([], .panic)

/-! ## The linker -/

/-- A linker script without its comments; `inside` says whether the text begins in one. -/
def withoutComments : Bool → Str → Str
  | _, [] => []
  | true, '*' :: '/' :: rest => withoutComments false rest
  | true, _ :: rest => withoutComments true rest
  | false, '/' :: '*' :: rest => withoutComments true rest
  | false, c :: rest => c :: withoutComments false rest

structure Region where
  name : Str
  origin : UInt32
  length : UInt32
  deriving DecidableEq, Repr

/-- The number of `key = num`. -/
def assigned (key s : Str) : Option UInt32 :=
  match Str.splitn2 '=' s with
  | [k, num] => if Str.trim k = key then parseHexU32 num else none
  | _ => none

/-- A line `name : ORIGIN = num, LENGTH = num`. -/
def readRegion (line : Str) : Option Region :=
  match Str.splitn2 ':' line with
  | [name, attrs] =>
    match Str.splitn2 ',' attrs with
    | [origin, length] => do
      let origin ← assigned "ORIGIN".toList origin
      let length ← assigned "LENGTH".toList length
      pure { name := Str.trim name, origin, length }
    | _ => none
  | _ => none

/-- The regions that a linker script gives. -/
def regions (txt : Str) : List Region := (Str.lines (withoutComments false txt)).filterMap readRegion

/-! ## Reading what is written -/

theorem writes_fmtPrefixedHex (width : Nat) (value : UInt32) : Writes (fmtPrefixedHex width value.toNat) value :=
  Or.inr ⟨'x', _, Or.inl rfl, rfl, denotes_digits (by decide) (by decide) _ _⟩

/-- A numeral has digits and the `x` of its prefix in it, and nothing else. -/
theorem not_mem_of_writes {num : Str} {value : UInt32} (h : Writes num value) {c : Char} (hends : Ends 16 c)
    (hx : c ≠ 'x' ∧ c ≠ 'X') : c ∉ num := by
  intro hc
  rcases h with hdec | ⟨x, digits, hprefix, rfl, hhex⟩
  · obtain ⟨d, hd, hlt⟩ := hdec.isDigit c hc
    exact hends d ⟨hd, by omega⟩
  · rcases List.mem_cons.1 hc with rfl | hc
    · exact hends 0 (by decide)
    rcases List.mem_cons.1 hc with rfl | hc
    · exact hprefix.elim hx.1 hx.2
    · obtain ⟨d, hd⟩ := hhex.isDigit c hc
      exact hends d hd

theorem isWhitespace_of_mem_space : ∀ c ∈ [' '], Str.isWhitespace c = true := List.forall_mem_singleton.2 rfl

theorem parseHexU32_space {num : Str} {value : UInt32} (h : Writes num value) : parseHexU32 (' ' :: num) = some value := by
  have hpad : Str.trim (' ' :: num) = Str.trim num := by
    have := Str.trim_pad (v := []) isWhitespace_of_mem_space (by simp) num
    simpa using this
  rw [← parseHexU32_of_writes h]
  unfold parseHexU32
  rw [hpad]

theorem assigned_eq {num : Str} {value : UInt32} (h : Writes num value) {key : Str} (hkey : '=' ∉ key) :
    assigned (Str.trim key) (key ++ '=' :: ' ' :: num) = some value := by
  unfold assigned
  rw [Str.splitn2_append hkey]
  dsimp only
  rw [if_pos rfl]
  exact parseHexU32_space h

/-- A region is read from the line that gives it. -/
theorem readRegion_regionLine {name : Str} (hname : ':' ∉ name) (origin length : UInt32) :
    readRegion (regionLine name origin length) = some { name := Str.trim name, origin, length } := by
  have horigin := writes_fmtPrefixedHex 10 origin
  have hlength := writes_fmtPrefixedHex 10 length
  have hcomma : ',' ∉ " ORIGIN = ".toList ++ fmtPrefixedHex 10 origin.toNat := by
    have := not_mem_of_writes horigin (c := ',') (by decide) (by decide)
    simpa using this
  have hline : regionLine name origin length = (name ++ [' ']) ++ ':' :: (" ORIGIN = ".toList ++ fmtPrefixedHex 10 origin.toNat ++
      ',' :: " LENGTH = ".toList ++ fmtPrefixedHex 10 length.toNat) := by
    simp [regionLine]
  have hcolon : ':' ∉ name ++ [' '] := by simpa using hname
  have hpad : Str.trim (name ++ [' ']) = Str.trim name := by
    have := Str.trim_pad (u := []) (by simp) isWhitespace_of_mem_space name
    simpa using this
  have hreadOrigin : assigned "ORIGIN".toList (" ORIGIN = ".toList ++ fmtPrefixedHex 10 origin.toNat) = some origin :=
    @assigned_eq _ _ horigin " ORIGIN ".toList (by decide)
  have hreadLength : assigned "LENGTH".toList (" LENGTH = ".toList ++ fmtPrefixedHex 10 length.toNat) = some length :=
    @assigned_eq _ _ hlength " LENGTH ".toList (by decide)
  unfold readRegion
  rw [hline, Str.splitn2_append hcolon]
  dsimp only
  rw [List.append_assoc _ (',' :: _), List.cons_append, Str.splitn2_append hcomma]
  dsimp only
  rw [hreadOrigin, hreadLength, hpad]
  rfl

/-- A comment ends at its first `*/`. -/
theorem withoutComments_inside {s : Str} (h : ¬['*', '/'] <:+: s) (rest : Str) :
    withoutComments true (s ++ '*' :: '/' :: rest) = withoutComments false rest := by
  induction s with
  | nil => rfl
  | cons c s ih =>
    have hrest : ¬['*', '/'] <:+: s := fun hin => h (hin.trans (List.suffix_cons c s).isInfix)
    rw [List.cons_append, ← ih hrest, withoutComments]
    intro rest' hc hs
    -- the comment would have ended before
    cases s with
    | nil => exact absurd (List.cons.inj hs).1 (by decide)
    | cons d s =>
      obtain rfl := (List.cons.inj hs).1
      exact h ⟨[], s, by rw [hc]; rfl⟩

theorem withoutComments_of_not_mem {s : Str} (h : '/' ∉ s) : withoutComments false s = s := by
  induction s with
  | nil => rfl
  | cons c s ih =>
    rw [List.mem_cons, not_or] at h
    rw [withoutComments, ih h.2]
    rintro rest rfl
    exact absurd rfl h.1

theorem not_mem_regionLine {name : Str} {c : Char}
    (h : c ∉ name ∧ Ends 16 c ∧ c ∉ " : ORIGIN = ".toList ∧ c ∉ ", LENGTH = ".toList ∧ c ≠ 'x' ∧ c ≠ 'X')
    (origin length : UInt32) : c ∉ regionLine name origin length := by
  obtain ⟨hname, hends, horigin, hlength, hx⟩ := h
  have hwritten := fun value => not_mem_of_writes (writes_fmtPrefixedHex 10 value) hends hx
  simp only [regionLine, List.mem_append, not_or]
  exact ⟨⟨⟨⟨hname, horigin⟩, hwritten origin⟩, hlength⟩, hwritten length⟩

theorem getLast?_ne_of_not_mem {s : Str} {c : Char} (h : c ∉ s) : s.getLast? ≠ some c :=
  fun hlast => h (List.mem_of_getLast? hlast)

/-- What `memory.x` begins with. -/
def banner : Str := "/* auto-generated by build.rs using ".toList

theorem withoutComments_banner (rest : Str) : withoutComments false (banner ++ rest) = withoutComments true rest := rfl

/-- What stands behind the comment. -/
def memoryBody (appStart flashLen ramBase ramSize : UInt32) : Str :=
  '\n' :: ("MEMORY \x7b".toList ++ '\n' :: (regionLine "FLASH".toList appStart flashLen ++ '\n' ::
    (regionLine "RAM".toList ramBase ramSize ++ '\n' :: "\x7d\n".toList)))

theorem memoryText_eq (source : Str) (appStart flashLen ramBase ramSize : UInt32) :
    memoryText source appStart flashLen ramBase ramSize =
      banner ++ (source ++ [' '] ++ '*' :: '/' :: memoryBody appStart flashLen ramBase ramSize) := by
  have hend : " */\n".toList = [' ', '*', '/', '\n'] := rfl
  have hopen : "MEMORY \x7b\n".toList = "MEMORY \x7b".toList ++ ['\n'] := rfl
  unfold memoryText memoryBody banner
  rw [hend, hopen]
  generalize "/* auto-generated by build.rs using ".toList = a
  generalize "MEMORY \x7b".toList = b
  generalize "\x7d\n".toList = c
  simp only [List.append_assoc, List.cons_append, List.nil_append]

theorem not_mem_memoryBody (appStart flashLen ramBase ramSize : UInt32) : '/' ∉ memoryBody appStart flashLen ramBase ramSize := by
  simp only [memoryBody, List.mem_append, List.mem_cons, not_or]
  exact ⟨by decide, by decide, by decide, not_mem_regionLine (by decide) _ _, by decide, not_mem_regionLine (by decide) _ _,
    by decide, by decide⟩

theorem lines_regionLine {name : Str} {origin length : UInt32} (hname : '\n' ∉ name ∧ '\r' ∉ name) (rest : Str) :
    Str.lines (regionLine name origin length ++ '\n' :: rest) = regionLine name origin length :: Str.lines rest :=
  Str.lines_append (not_mem_regionLine ⟨hname.1, by decide⟩ _ _)
    (getLast?_ne_of_not_mem (not_mem_regionLine ⟨hname.2, by decide⟩ _ _)) rest

theorem lines_memoryBody (appStart flashLen ramBase ramSize : UInt32) :
    Str.lines (memoryBody appStart flashLen ramBase ramSize) =
      [[], "MEMORY \x7b".toList, regionLine "FLASH".toList appStart flashLen, regionLine "RAM".toList ramBase ramSize,
        "\x7d".toList] := by
  show Str.lines ([] ++ '\n' :: _) = _
  rw [Str.lines_append (by simp) (by simp), Str.lines_append (by decide) (by decide), lines_regionLine (by decide),
    lines_regionLine (by decide)]
  rfl

/-- The linker reads the two regions that were written, unless the path of the info file ends the comment that
it stands in. -/
theorem regions_memoryText {source : Str} (h : ¬['*', '/'] <:+: source) (appStart flashLen ramBase ramSize : UInt32) :
    regions (memoryText source appStart flashLen ramBase ramSize) =
      [{ name := "FLASH".toList, origin := appStart, length := flashLen },
       { name := "RAM".toList, origin := ramBase, length := ramSize }] := by
  have hsource : ¬['*', '/'] <:+: source ++ [' '] := by
    rw [List.infix_concat_iff, not_or]
    refine ⟨fun hsuffix => ?_, h⟩
    have := hsuffix.getLast (by simp)
    simp at this
  have hflash : readRegion (regionLine "FLASH".toList appStart flashLen) = some _ := readRegion_regionLine (by decide) _ _
  have hram : readRegion (regionLine "RAM".toList ramBase ramSize) = some _ := readRegion_regionLine (by decide) _ _
  have hnil : readRegion [] = none := rfl
  have hopen : readRegion "MEMORY \x7b".toList = none := rfl
  have hclose : readRegion "\x7d".toList = none := rfl
  unfold regions
  rw [memoryText_eq, withoutComments_banner, withoutComments_inside hsource,
    withoutComments_of_not_mem (not_mem_memoryBody _ _ _ _), lines_memoryBody]
  simp only [List.filterMap_cons, hnil, hopen, hclose, hflash, hram, List.filterMap_nil]
  rfl

/-! ## From the environment to the linker -/

/-- The environment gives a layout: in both variables, or in neither and in the first info file that has one. -/
def Layout (env : Env) (app flash : UInt32) : Prop :=
  env.hexU32 "APP_BASE" = some app ∧ env.hexU32 "FLASH_SIZE" = some flash ∨
    env.hexU32 "APP_BASE" = none ∧ env.hexU32 "FLASH_SIZE" = none ∧
      ∃ before path after, candidateInfoPaths env = before ++ path :: after ∧
        (∀ p ∈ before, readInfoFile (env.readToString p) = none) ∧ readInfoFile (env.readToString path) = some (app, flash)

/-- If the layout comes from an info file, the path of that file does not end the comment that it is written
into. -/
def PathFits (env : Env) : Prop :=
  ∀ vals path, env.hexU32 "APP_BASE" = none → fromInfo env = some (vals, path) → ¬['*', '/'] <:+: path

variable {env : Env} {app flash : UInt32}

theorem fromInfo_eq_some {path : Str} :
    fromInfo env = some ((app, flash), path) ↔
      ∃ before after, candidateInfoPaths env = before ++ path :: after ∧
        (∀ p ∈ before, readInfoFile (env.readToString p) = none) ∧ readInfoFile (env.readToString path) = some (app, flash) := by
  unfold fromInfo
  rw [List.findSome?_eq_some_iff]
  constructor
  · rintro ⟨before, path', after, hpaths, hread, hbefore⟩
    obtain ⟨vals, hvals, heq⟩ := Option.map_eq_some_iff.1 hread
    obtain ⟨rfl, rfl⟩ := Prod.mk.inj heq
    exact ⟨before, after, hpaths, fun p hp => Option.map_eq_none_iff.1 (hbefore p hp), hvals⟩
  · rintro ⟨before, after, hpaths, hbefore, hread⟩
    exact ⟨before, path, after, hpaths, by rw [hread]; rfl, fun p hp => Option.map_eq_none_iff.2 (hbefore p hp)⟩

/-- What begins with a character that a front part does not have lies behind it. -/
theorem infix_of_append {a : Char} {b s t : Str} (h : a ∉ s) (hin : a :: b <:+: s ++ t) : a :: b <:+: t := by
  induction s with
  | nil => exact hin
  | cons c s ih =>
    rw [List.mem_cons, not_or] at h
    rcases List.infix_cons_iff.1 hin with hprefix | hrest
    · exact absurd (List.cons_prefix_cons.1 hprefix).1 h.1
    · exact ih h.2 hrest

/-- The script has a layout exactly where the environment gives one; the name of its source has a path in it at
most. -/
theorem chooseLayout_spec (env : Env) :
    (∀ app flash, Layout env app flash → ∃ source, chooseLayout env = .ok ((app, flash), source)) ∧
      match chooseLayout env with
      | .ok ((app, flash), source) =>
        Layout env app flash ∧ (PathFits env → ¬['*', '/'] <:+: source)
      | .err e => e = .noLayout
      | .panic => False := by
  unfold chooseLayout
  constructor
  · rintro app flash (⟨happ, hflash⟩ | ⟨happ, hflash, before, path, after, hpaths, hbefore, hread⟩)
    · rw [happ, hflash]
      exact ⟨_, rfl⟩
    · rw [happ, hflash, fromInfo_eq_some.2 ⟨before, after, hpaths, hbefore, hread⟩]
      exact ⟨_, rfl⟩
  · cases happ : env.hexU32 "APP_BASE" with
    | some app =>
      cases hflash : env.hexU32 "FLASH_SIZE" with
      | some flash => exact ⟨Or.inl ⟨happ, hflash⟩, fun _ => by decide⟩
      | none => exact rfl
    | none =>
      cases hflash : env.hexU32 "FLASH_SIZE" with
      | some flash => exact rfl
      | none =>
        cases hinfo : fromInfo env with
        | none => exact rfl
        | some info =>
          obtain ⟨⟨app, flash⟩, path⟩ := info
          obtain ⟨before, after, hpaths, hbefore, hread⟩ := fromInfo_eq_some.1 hinfo
          refine ⟨Or.inr ⟨happ, hflash, before, path, after, hpaths, hbefore, hread⟩, fun hfits hin => ?_⟩
          exact hfits _ path happ hinfo (infix_of_append (by decide) hin)

theorem Layout.memoryX (h : Layout env app flash) :
    ∃ source, (PathFits env → ¬['*', '/'] <:+: source) ∧
      memoryX env =
        if app < flash then
          .ok (memoryText source app (flash - app) ((env.hexU32 "RAM_BASE").getD 0x20000000)
            ((env.hexU32 "RAM_SIZE").getD 0x00040000))
        else .err (.appAboveFlash app flash) := by
  obtain ⟨hfinds, hspec⟩ := chooseLayout_spec env
  obtain ⟨source, hchoose⟩ := hfinds app flash h
  rw [hchoose] at hspec
  refine ⟨source, hspec.2, ?_⟩
  unfold FeatherFw.memoryX
  rw [hchoose, ok_bind]
  split_ifs with hlt
  · have hle : ¬app ≥ flash := UInt32.not_le.2 hlt
    dsimp only
    rw [rejectIf_neg hle, ok_bind, u32Sub_ok (UInt32.le_of_lt hlt), ok_bind]
    rfl
  · have hge : app ≥ flash := UInt32.not_lt.1 hlt
    dsimp only
    rw [rejectIf_pos hge]
    rfl

theorem memoryX_of_no_layout (h : ∀ app flash, ¬Layout env app flash) : memoryX env = .err .noLayout := by
  obtain ⟨-, hspec⟩ := chooseLayout_spec env
  unfold memoryX
  cases hchoose : chooseLayout env with
  | ok found =>
    obtain ⟨⟨app, flash⟩, source⟩ := found
    rw [hchoose] at hspec
    exact absurd hspec.1 (h app flash)
  | err e =>
    rw [hchoose] at hspec
    rw [show e = .noLayout from hspec]
    rfl
  | panic => rw [hchoose] at hspec; exact hspec.elim

theorem main_of_memoryX_err {e : Refusal} (h : memoryX env = .err e) : main env = ([], .err e) := by rw [main, h]

theorem main_of_memoryX_ok {memory : Str} (h : memoryX env = .ok memory) :
    (∀ file ∈ (main env).1, file.2 = memory) ∧ (∀ e, (main env).2 ≠ .err e) ∧
      ∀ manifestDir outDir, env.var "CARGO_MANIFEST_DIR".toList = some manifestDir → env.var "OUT_DIR".toList = some outDir →
        env.canWrite (join manifestDir "memory.x".toList) = true → env.canWrite (join outDir "memory.x".toList) = true →
          main env =
            ([(join manifestDir "memory.x".toList, memory), (join outDir "memory.x".toList, memory)], .ok ()) := by
  unfold main
  rw [h]
  refine ⟨?_, ?_, ?_⟩
  · dsimp only
    split
    · split_ifs <;> simp
    · simp
  · intro e
    dsimp only
    split
    · split_ifs <;> simp
    · simp
  · intro manifestDir outDir hmanifest hout hroot hwrite
    rw [hmanifest, hout]
    dsimp only
    rw [hroot, hwrite, if_neg (by decide), if_neg (by decide)]

/-- The script exits exactly when the environment gives no layout, or one whose program does not start inside the
flash. It has written nothing then. One of the two variables alone is refused even where an info file has a layout. -/
theorem main_refuses_iff (env : Env) :
    ((∃ e, (main env).2 = .err e) ↔ ∀ app flash, Layout env app flash → flash ≤ app) ∧
      ((∃ e, (main env).2 = .err e) → (main env).1 = []) ∧
      ((env.hexU32 "APP_BASE").isSome ≠ (env.hexU32 "FLASH_SIZE").isSome → (main env).2 = .err .noLayout) := by
  have hwrites : (∃ e, (main env).2 = .err e) ↔ ∃ e, memoryX env = .err e := by
    cases hmemory : memoryX env with
    | ok memory => exact iff_of_false (fun ⟨e, he⟩ => (main_of_memoryX_ok hmemory).2.1 e he) (by simp)
    | err e => exact iff_of_true ⟨e, by rw [main_of_memoryX_err hmemory]⟩ ⟨e, rfl⟩
    | panic => exact iff_of_false (by rw [main, hmemory]; simp) (by simp)
  refine ⟨?_, ?_, ?_⟩
  · rw [hwrites]
    constructor
    · rintro ⟨e, he⟩ app flash hlayout
      obtain ⟨source, -, hmemory⟩ := hlayout.memoryX
      by_contra hlt
      rw [if_pos (UInt32.not_le.1 hlt), he] at hmemory
      contradiction
    · intro hall
      by_cases hlayout : ∃ app flash, Layout env app flash
      · obtain ⟨app, flash, hlayout⟩ := hlayout
        obtain ⟨source, -, hmemory⟩ := hlayout.memoryX
        rw [if_neg (UInt32.not_lt.2 (hall app flash hlayout))] at hmemory
        exact ⟨_, hmemory⟩
      · push Not at hlayout
        exact ⟨_, memoryX_of_no_layout hlayout⟩
  · intro h
    obtain ⟨e, he⟩ := hwrites.1 h
    rw [main_of_memoryX_err he]
  · intro hhalf
    have hnone : ∀ app flash, ¬Layout env app flash := by
      rintro app flash (⟨happ, hflash⟩ | ⟨happ, hflash, -⟩)
      · rw [happ, hflash] at hhalf; exact hhalf rfl
      · rw [happ, hflash] at hhalf; exact hhalf rfl
    rw [main_of_memoryX_err (memoryX_of_no_layout hnone)]

/-- A layout that the environment gives reaches the linker: both copies of `memory.x` have one text, and the linker
reads from it the program's part of the flash, up to its very end, and the RAM of the environment or the default. -/
theorem main_links_layout (hpath : PathFits env) (hlayout : Layout env app flash) (hlt : app < flash) :
    ∃ memory, (∀ file ∈ (main env).1, file.2 = memory) ∧
      regions memory =
        [{ name := "FLASH".toList, origin := app, length := flash - app },
         { name := "RAM".toList
           origin := (env.hexU32 "RAM_BASE").getD 0x20000000
           length := (env.hexU32 "RAM_SIZE").getD 0x00040000 }] ∧
      app.toNat + (flash - app).toNat = flash.toNat ∧
      ∀ manifestDir outDir, env.var "CARGO_MANIFEST_DIR".toList = some manifestDir → env.var "OUT_DIR".toList = some outDir →
        env.canWrite (join manifestDir "memory.x".toList) = true → env.canWrite (join outDir "memory.x".toList) = true →
          main env =
            ([(join manifestDir "memory.x".toList, memory), (join outDir "memory.x".toList, memory)], .ok ()) := by
  obtain ⟨source, hsource, hmemory⟩ := hlayout.memoryX
  rw [if_pos hlt] at hmemory
  obtain ⟨hfiles, -, hmain⟩ := main_of_memoryX_ok hmemory
  refine ⟨_, hfiles, regions_memoryText (hsource hpath) .., ?_, hmain⟩
  rw [UInt32.toNat_sub_of_le _ _ (UInt32.le_of_lt hlt)]
  have := UInt32.lt_iff_toNat_lt.1 hlt
  omega

/-- A machine with the bootloader mounted under `/run/media`. -/
def mounted : Env where
  var key :=
    if key = "USER".toList then some "me".toList
    else if key = "CARGO_MANIFEST_DIR".toList then some "/fw".toList
    else if key = "OUT_DIR".toList then some "/fw/target/".toList
    else none
  readToString path :=
    if path = "/run/media/me/FTHR840BOOT/INFO_UF2.TXT".toList then some "App start: 0x26000\nFlash size: 1048576\n".toList
    else none
  canWrite _ := true

theorem main_links_layout_mounted :
    ∃ memory, main mounted = ([("/fw/memory.x".toList, memory), ("/fw/target/memory.x".toList, memory)], .ok ()) ∧
      (regions memory).map (fun r => (r.origin, r.length)) = [(0x26000, 0xDA000), (0x20000000, 0x40000)] := by
  have hlayout : Layout mounted 0x26000 0x100000 :=
    Or.inr ⟨by decide, by decide, ["/media/me/FTHR840BOOT/INFO_UF2.TXT".toList, "/media/me/fthr840boot/info_uf2.txt".toList],
      "/run/media/me/FTHR840BOOT/INFO_UF2.TXT".toList, ["/run/media/me/fthr840boot/info_uf2.txt".toList], by decide, by decide,
      by decide⟩
  have hinfo : fromInfo mounted = some ((0x26000, 0x100000), "/run/media/me/FTHR840BOOT/INFO_UF2.TXT".toList) := by decide
  have hpath : PathFits mounted := by
    intro vals path _ hfrom
    obtain ⟨-, rfl⟩ := Prod.mk.inj (Option.some.inj (hinfo.symm.trans hfrom))
    decide
  obtain ⟨memory, -, hregions, -, hmain⟩ := main_links_layout hpath hlayout (by decide)
  exact ⟨memory, hmain _ _ rfl rfl rfl rfl, by rw [hregions]; rfl⟩

end KeyboardProject.FeatherFw
