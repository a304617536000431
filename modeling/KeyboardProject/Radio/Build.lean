/-
The linker script of the radio link test and of the LED test (`main` of their `build.rs`; the three differ in the texts
of their panics). Where it is written it gives the layout that the Feather firmware's build script gives.
-/
import KeyboardProject.FeatherFw.Memory

namespace KeyboardProject.Radio

open Rust Rust.Outcome FeatherFw

/-- The text of `memory.x`. -/
def memoryText (appStart flashLen ramBase ramSize : UInt32) : Str :=
  "MEMORY \x7b\n".toList ++ regionLine "  FLASH".toList appStart flashLen ++ '\n' ::
    regionLine "  RAM".toList ramBase ramSize ++ '\n' :: "\x7d\n".toList

def memoryX (env : Env) : Outcome Empty Str :=
  match env.hexU32 "APP_BASE", env.hexU32 "FLASH_SIZE" with
  | some app, some flashSize =>
    if app ≥ flashSize then .panic
    else do
      let ramBase := (env.hexU32 "RAM_BASE").getD 0x20000000
      let ramSize := (env.hexU32 "RAM_SIZE").getD 0x00040000
      let flashLen ← u32Sub flashSize app
      pure (memoryText app flashLen ramBase ramSize)
  | _, _ => .panic

/-- The files that the script has written when it ends, and how it ends. -/
def buildMain (env : Env) : List (Str × Str) × Outcome Empty Unit :=
  match memoryX env with
  | .err e => ([], .err e)
  | .panic => ([], .panic)
  | .ok memory =>
    match env.var "OUT_DIR".toList with
    | some outDir =>
      let outPath := join outDir "memory.x".toList
      if env.canWrite outPath = false then ([], .panic)
      else if env.canWrite "memory.x".toList = false then ([(outPath, memory)], .panic)
      else ([(outPath, memory), ("memory.x".toList, memory)], .ok ())
    | none => ([], .panic)

/-! ## What the linker reads -/

theorem memoryText_eq (appStart flashLen ramBase ramSize : UInt32) :
    memoryText appStart flashLen ramBase ramSize =
      "MEMORY \x7b".toList ++ '\n' :: (regionLine "  FLASH".toList appStart flashLen ++ '\n' ::
        (regionLine "  RAM".toList ramBase ramSize ++ '\n' :: ("\x7d".toList ++ '\n' :: []))) := by
  have hopen : "MEMORY \x7b\n".toList = "MEMORY \x7b".toList ++ ['\n'] := rfl
  have hclose : "\x7d\n".toList = "\x7d".toList ++ ['\n'] := rfl
  unfold memoryText
  rw [hopen, hclose]
  generalize "MEMORY \x7b".toList = a
  generalize "\x7d".toList = b
  simp only [List.append_assoc, List.cons_append, List.nil_append]

theorem regions_memoryText (appStart flashLen ramBase ramSize : UInt32) :
    regions (memoryText appStart flashLen ramBase ramSize) =
      [{ name := "FLASH".toList, origin := appStart, length := flashLen },
       { name := "RAM".toList, origin := ramBase, length := ramSize }] := by
  have hslash : '/' ∉ memoryText appStart flashLen ramBase ramSize := by
    rw [memoryText_eq]
    simp only [List.mem_append, List.mem_cons, not_or]
    exact ⟨by decide, by decide, not_mem_regionLine (by decide) _ _, by decide, not_mem_regionLine (by decide) _ _,
      by decide, by decide, by decide, by decide⟩
  have hflash : readRegion (regionLine "  FLASH".toList appStart flashLen) = some _ := readRegion_regionLine (by decide) _ _
  have hram : readRegion (regionLine "  RAM".toList ramBase ramSize) = some _ := readRegion_regionLine (by decide) _ _
  have hopen : readRegion "MEMORY \x7b".toList = none := rfl
  have hclose : readRegion "\x7d".toList = none := rfl
  have hnil : Str.lines [] = [] := rfl
  unfold regions
  rw [withoutComments_of_not_mem hslash, memoryText_eq, Str.lines_append (by decide) (by decide), lines_regionLine (by decide),
    lines_regionLine (by decide), Str.lines_append (by decide) (by decide), hnil]
  simp only [List.filterMap_cons, hopen, hclose, hflash, hram, List.filterMap_nil]
  rfl

/-! ## The two scripts on one environment -/

variable {env : Env} {app flash : UInt32}

/-- The layout of an environment with both variables, for the Feather's script. -/
theorem feather_memoryX (happ : env.hexU32 "APP_BASE" = some app) (hflash : env.hexU32 "FLASH_SIZE" = some flash)
    (hlt : app < flash) :
    FeatherFw.memoryX env =
      .ok (FeatherFw.memoryText "environment (APP_BASE/FLASH_SIZE)".toList app (flash - app)
        ((env.hexU32 "RAM_BASE").getD 0x20000000) ((env.hexU32 "RAM_SIZE").getD 0x00040000)) := by
  have hle : ¬app ≥ flash := UInt32.not_le.2 hlt
  unfold FeatherFw.memoryX chooseLayout
  rw [happ, hflash, ok_bind]
  dsimp only
  rw [rejectIf_neg hle, ok_bind, u32Sub_ok (UInt32.le_of_lt hlt), ok_bind]
  rfl

theorem memoryX_of_vars (happ : env.hexU32 "APP_BASE" = some app) (hflash : env.hexU32 "FLASH_SIZE" = some flash) :
    memoryX env =
      if app < flash then
        .ok (memoryText app (flash - app) ((env.hexU32 "RAM_BASE").getD 0x20000000)
          ((env.hexU32 "RAM_SIZE").getD 0x00040000))
      else .panic := by
  unfold memoryX
  rw [happ, hflash]
  dsimp only
  by_cases hlt : app < flash
  · rw [if_neg (UInt32.not_le.2 hlt), if_pos hlt, u32Sub_ok (UInt32.le_of_lt hlt), ok_bind]
    rfl
  · rw [if_pos (UInt32.not_lt.1 hlt), if_neg hlt]

/-- A layout that this script finds comes from both variables. -/
theorem vars_of_memoryX {text : Str} (h : memoryX env = .ok text) :
    ∃ app flash, env.hexU32 "APP_BASE" = some app ∧ env.hexU32 "FLASH_SIZE" = some flash ∧ app < flash := by
  cases happ : env.hexU32 "APP_BASE" with
  | none =>
    unfold memoryX at h
    rw [happ] at h
    contradiction
  | some app =>
    cases hflash : env.hexU32 "FLASH_SIZE" with
    | none =>
      unfold memoryX at h
      rw [happ, hflash] at h
      contradiction
    | some flash =>
      rw [memoryX_of_vars happ hflash] at h
      split_ifs at h with hlt
      exact ⟨app, flash, rfl, rfl, hlt⟩

theorem buildMain_files {file : Str × Str} (h : file ∈ (buildMain env).1) : memoryX env = .ok file.2 := by
  unfold buildMain at h
  cases hmemory : memoryX env with
  | panic =>
    rw [hmemory] at h
    cases h
  | err e => exact e.elim
  | ok memory =>
    rw [hmemory] at h
    dsimp only at h
    split at h
    · split_ifs at h
      · cases h
      · rw [List.mem_singleton.1 h]
      · rcases List.mem_cons.1 h with rfl | h
        · rfl
        · rw [List.mem_singleton.1 h]
    · cases h

/-- The build scripts agree: on any environment this script has a layout to write exactly when both variables are
numbers and the Feather's script has one, and whatever the two then write, the linker reads the same regions. -/
theorem build_agrees (env : Env) :
    ((∃ text, memoryX env = .ok text) ↔
      (env.hexU32 "APP_BASE").isSome = true ∧ (env.hexU32 "FLASH_SIZE").isSome = true ∧ ∃ text, FeatherFw.memoryX env = .ok text) ∧
      ∀ file ∈ (buildMain env).1, ∀ file' ∈ (FeatherFw.main env).1, regions file.2 = regions file'.2 := by
  refine ⟨⟨?_, ?_⟩, ?_⟩
  · rintro ⟨text, h⟩
    obtain ⟨app, flash, happ, hflash, hlt⟩ := vars_of_memoryX h
    exact ⟨by rw [happ]; rfl, by rw [hflash]; rfl, _, feather_memoryX happ hflash hlt⟩
  · rintro ⟨happ, hflash, text, h⟩
    obtain ⟨app, happ⟩ := Option.isSome_iff_exists.1 happ
    obtain ⟨flash, hflash⟩ := Option.isSome_iff_exists.1 hflash
    obtain ⟨source, -, hmemory⟩ := Layout.memoryX (Or.inl ⟨happ, hflash⟩)
    rw [h] at hmemory
    split_ifs at hmemory with hlt
    exact ⟨_, by rw [memoryX_of_vars happ hflash, if_pos hlt]⟩
  · intro file hfile file' hfile'
    have hmemory := buildMain_files hfile
    obtain ⟨app, flash, happ, hflash, hlt⟩ := vars_of_memoryX hmemory
    have hfeather := feather_memoryX happ hflash hlt
    have htext := (main_of_memoryX_ok hfeather).1 file' hfile'
    rw [memoryX_of_vars happ hflash, if_pos hlt] at hmemory
    rw [← ok.inj hmemory, htext, regions_memoryText, FeatherFw.regions_memoryText (by decide)]

end KeyboardProject.Radio
