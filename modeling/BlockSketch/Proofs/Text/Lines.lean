import BlockSketch.Sketch.Assembly
import Mathlib.Data.List.Induction

/-!
Lines of texts. Where a text is made of lines with a line feed behind each, every one of them is a
line of it. So a fragment of one line is a line of the block that it is laid out in.
-/

namespace BlockSketch.Text

def StartsLine (text lead : String) : Prop :=
  ∃ before after, text = before ++ lead ++ after ∧ (before = "" ∨ ∃ b, before = b ++ "\n")

def HasLine (text line : String) : Prop := StartsLine text (line ++ "\n")

theorem StartsLine.append {text lead : String} (h : StartsLine text lead) (rest : String) :
    StartsLine (text ++ rest) lead := by
  obtain ⟨before, after, rfl, hbefore⟩ := h
  exact ⟨before, after ++ rest, by simp [String.append_assoc], hbefore⟩

theorem StartsLine.of_append {text lead rest : String} (h : StartsLine text (lead ++ rest)) :
    StartsLine text lead := by
  obtain ⟨before, after, rfl, hbefore⟩ := h
  exact ⟨before, rest ++ after, by simp [String.append_assoc], hbefore⟩

/-- Behind lines, a text starts a line. -/
theorem startsLine_join_append (lines : List String) (lead rest : String) :
    StartsLine (String.join (lines.map (· ++ "\n")) ++ (lead ++ rest)) lead := by
  refine ⟨String.join (lines.map (· ++ "\n")), rest, by simp [String.append_assoc], ?_⟩
  induction lines using List.reverseRecOn with
  | nil => exact .inl rfl
  | append_singleton lines line _ =>
      exact .inr ⟨String.join (lines.map (· ++ "\n")) ++ line, by simp [String.append_assoc]⟩

/-- Each of some lines is a line of the text that they make. -/
theorem hasLine_join {lines : List String} {line : String} (h : line ∈ lines) :
    HasLine (String.join (lines.map (· ++ "\n"))) line := by
  obtain ⟨before, after, rfl⟩ := List.append_of_mem h
  have hstarts := startsLine_join_append before (line ++ "\n")
    (String.join (after.map (· ++ "\n")))
  simpa [HasLine] using hstarts

/-- Lines with a line feed between them. -/
theorem join_lines {lines : List String} (h : lines ≠ []) :
    String.join (lines.map (· ++ "\n")) = "\n".intercalate lines ++ "\n" := by
  induction lines with
  | nil => exact absurd rfl h
  | cons line rest ih =>
      cases rest with
      | nil => simp
      | cons next rest =>
          rw [String.intercalate_cons_cons, List.map_cons, String.join_cons, ih (by simp)]
          simp [String.append_assoc]

end BlockSketch.Text

namespace BlockSketch.Sections

/-- A fragment that is not blank and ends in no line feed is a line of its block. -/
theorem hasLine_block {texts : List String} {text : String} (h : text ∈ texts)
    (hends : Text.trimLineEnds text = text) (hblank : Text.isBlank text = false) :
    Text.HasLine (block "\n" texts) text := by
  have hkept : text ∈ (texts.map Text.trimLineEnds).filter (fun t => !Text.isBlank t) :=
    List.mem_filter.mpr ⟨List.mem_map.mpr ⟨text, h, hends⟩, by simp [hblank]⟩
  have hne := List.ne_nil_of_mem hkept
  have hlines := Text.hasLine_join hkept
  rw [Text.join_lines hne] at hlines
  have hblock : block "\n" texts = "\n".intercalate
      ((texts.map Text.trimLineEnds).filter (fun t => !Text.isBlank t)) ++ "\n" ++ "\n" := by
    rw [block, if_neg (by simpa using hne), String.append_assoc]
    rfl
  rw [hblock]
  exact hlines.append "\n"

end BlockSketch.Sections
