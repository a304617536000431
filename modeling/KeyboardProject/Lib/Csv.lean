/-
Tables as comma-separated text, a line for each row. A table reads back when its rows are not empty and no field has a
comma or a line ending in it.
-/
import KeyboardProject.Rust.Str

namespace Csv

open Rust

def line (row : List Str) : Str := [','].intercalate row

def text (rows : List (List Str)) : Str := rows.flatMap fun row => line row ++ ['\n']

def read (s : Str) : List (List Str) := (Str.lines s).map (List.splitOn ',')

/-- The field can stand in a line as it is. -/
def Plain (field : Str) : Prop := ',' ∉ field ∧ '\n' ∉ field ∧ '\r' ∉ field

instance (field : Str) : Decidable (Plain field) := inferInstanceAs (Decidable (_ ∧ _ ∧ _))

theorem mem_line {row : List Str} {c : Char} (h : c ∈ line row) : c = ',' ∨ ∃ field ∈ row, c ∈ field := by
  induction row with
  | nil => cases h
  | cons field row ih =>
    cases row with
    | nil =>
      rw [line, List.intercalate_singleton] at h
      exact Or.inr ⟨field, List.mem_singleton_self field, h⟩
    | cons next row =>
      rw [line, List.intercalate_cons_cons] at h
      rcases List.mem_append.1 h with hfront | hrest
      · rcases List.mem_append.1 hfront with hfield | hcomma
        · exact Or.inr ⟨field, List.mem_cons_self .., hfield⟩
        · exact Or.inl (List.mem_singleton.1 hcomma)
      · rcases ih hrest with hcomma | ⟨field', hmem, hc⟩
        · exact Or.inl hcomma
        · exact Or.inr ⟨field', List.mem_cons_of_mem _ hmem, hc⟩

theorem splitOn_line {row : List Str} (hne : row ≠ []) (h : ∀ field ∈ row, Plain field) : (line row).splitOn ',' = row :=
  List.splitOn_intercalate ',' (fun field hfield => (h field hfield).1) hne

/-- A table reads back. -/
theorem read_text {rows : List (List Str)} (h : ∀ row ∈ rows, row ≠ [] ∧ ∀ field ∈ row, Plain field) :
    read (text rows) = rows := by
  induction rows with
  | nil => rfl
  | cons row rows ih =>
    obtain ⟨hne, hplain⟩ := h row (List.mem_cons_self ..)
    have hnewline : '\n' ∉ line row := by
      intro hc
      rcases mem_line hc with hcomma | ⟨field, hfield, hc⟩
      · exact absurd hcomma (by decide)
      · exact (hplain field hfield).2.1 hc
    have hreturn : (line row).getLast? ≠ some '\r' := by
      intro hlast
      rcases mem_line (List.mem_of_getLast? hlast) with hcomma | ⟨field, hfield, hc⟩
      · exact absurd hcomma (by decide)
      · exact (hplain field hfield).2.2 hc
    have hrest : text (row :: rows) = line row ++ '\n' :: text rows := by simp [text]
    have hlines := ih fun r hr => h r (List.mem_cons_of_mem row hr)
    unfold read at hlines ⊢
    rw [hrest, Str.lines_append hnewline hreturn, List.map_cons, splitOn_line hne hplain, hlines]

end Csv
