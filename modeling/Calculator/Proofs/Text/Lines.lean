import Calculator.Proofs.Text.OneLine
import Mathlib.Data.List.Forall2
import Mathlib.Logic.ExistsUnique

/-!
# The lines of an input

`existsUnique_enters`, `enters_iff`: an input breaks into lines in one way, every line has one text between its blanks,
and what `strippedLines` gives are those texts in order, the empty ones left out.
-/

namespace Calculator.Text

/-! ## Ends of lines -/

/-- How a text breaks into lines: each ends at a newline, at a carriage return, or at both in this order, and a last
one that is not empty needs no end. -/
inductive BreaksInto : List Char → List (List Char) → Prop
  | done : BreaksInto [] []
  | unended {line : List Char} (unbroken : Unbroken line) (nonempty : line ≠ []) : BreaksInto line [line]
  | newline {line rest : List Char} {lines : List (List Char)} (unbroken : Unbroken line)
      (more : BreaksInto rest lines) : BreaksInto (line ++ '\n' :: rest) (line :: lines)
  | returnNewline {line rest : List Char} {lines : List (List Char)} (unbroken : Unbroken line)
      (more : BreaksInto rest lines) : BreaksInto (line ++ '\r' :: '\n' :: rest) (line :: lines)
  | carriageReturn {line rest : List Char} {lines : List (List Char)} (unbroken : Unbroken line)
      (single : rest.head? ≠ some '\n') (more : BreaksInto rest lines) :
      BreaksInto (line ++ '\r' :: rest) (line :: lines)

theorem linesFrom_return {rest : List Char} (h : rest.head? ≠ some '\n') (ended : List (List Char))
    (begun : List Char) : linesFrom ended begun ('\r' :: rest) = linesFrom (begun.reverse :: ended) [] rest := by
  rw [linesFrom, if_pos (.inr rfl)]
  rintro tail - rfl
  exact h rfl

theorem linesFrom_pass (rest : List Char) : ∀ {cs : List Char}, Unbroken cs → ∀ ended begun,
    linesFrom ended begun (cs ++ rest) = linesFrom ended (cs.reverse ++ begun) rest
  | [], _, _, _ => rfl
  | c :: cs, h, ended, begun => by
    obtain ⟨hc, hcs⟩ := unbroken_cons.mp h
    simp only [endsLine, Bool.or_eq_false_iff, beq_eq_false_iff_ne] at hc
    rw [List.cons_append, linesFrom, if_neg (by simp [hc]), linesFrom_pass rest hcs]
    · simp
    · simp [hc]

theorem linesFrom_of_breaksInto {cs : List Char} {ls : List (List Char)} (h : BreaksInto cs ls) :
    ∀ ended, linesFrom ended [] cs = ended.reverse ++ ls := by
  induction h with
  | done => intro ended; simp [linesFrom]
  | @unended line hline hne =>
    intro ended
    have hpass := linesFrom_pass [] hline ended []
    rw [List.append_nil, List.append_nil] at hpass
    simp [hpass, linesFrom, hne]
  | newline hline _ ih =>
    intro ended
    rw [linesFrom_unbroken _ hline, ih]
    simp
  | returnNewline hline _ ih =>
    intro ended
    rw [linesFrom_pass _ hline, linesFrom, ih]
    simp
  | carriageReturn hline hsingle _ ih =>
    intro ended
    rw [linesFrom_pass _ hline, linesFrom_return hsingle, ih]
    simp

theorem breaksInto_linesFrom (ended : List (List Char)) (begun cs : List Char) (h : Unbroken begun.reverse) :
    ∃ ls, linesFrom ended begun cs = ended.reverse ++ ls ∧ BreaksInto (begun.reverse ++ cs) ls := by
  fun_induction linesFrom ended begun cs with
  | case1 ended begun =>
    cases begun with
    | nil => exact ⟨[], by simp, .done⟩
    | cons c begun => exact ⟨[(c :: begun).reverse], by simp, by rw [List.append_nil]; exact .unended h (by simp)⟩
  | case2 ended begun rest ih =>
    obtain ⟨ls, hls, hbreaks⟩ := ih unbroken_nil
    exact ⟨begun.reverse :: ls, by simp [hls], .returnNewline h hbreaks⟩
  | case3 ended begun c rest hsingle hc ih =>
    obtain ⟨ls, hls, hbreaks⟩ := ih unbroken_nil
    refine ⟨begun.reverse :: ls, by simp [hls], ?_⟩
    rcases hc with rfl | rfl
    · exact .newline h hbreaks
    · refine .carriageReturn h (fun hhead => ?_) hbreaks
      obtain ⟨tail, rfl⟩ := List.head?_eq_some_iff.mp hhead
      exact hsingle tail rfl rfl
  | case4 ended begun c rest _ hc ih =>
    have hbegun : Unbroken (c :: begun).reverse := by
      rw [List.reverse_cons, unbroken_append]
      exact ⟨h, unbroken_cons.mpr ⟨by simpa [endsLine] using hc, unbroken_nil⟩⟩
    obtain ⟨ls, hls, hbreaks⟩ := ih hbegun
    exact ⟨ls, hls, by simpa using hbreaks⟩

theorem lines_eq_iff {cs : List Char} {ls : List (List Char)} : lines cs = ls ↔ BreaksInto cs ls := by
  constructor
  · rintro rfl
    obtain ⟨ls, hls, hbreaks⟩ := breaksInto_linesFrom [] [] cs unbroken_nil
    rw [lines, hls]
    exact hbreaks
  · exact fun h => linesFrom_of_breaksInto h []

/-! ## Blanks at the ends of a line -/

def StripsTo (line core : List Char) : Prop :=
  ∃ before behind, line = before ++ (core ++ behind) ∧ (∀ c ∈ before, isBlank c = true) ∧
    (∀ c ∈ behind, isBlank c = true) ∧ (∀ c ∈ core.head?, isBlank c = false) ∧ ∀ c ∈ core.getLast?, isBlank c = false

theorem dropWhile_blanks {before rest : List Char} (h : ∀ c ∈ before, isBlank c = true)
    (hr : ∀ c ∈ rest.head?, isBlank c = false) : (before ++ rest).dropWhile isBlank = rest :=
  (takeWhile_append rest h hr).2

theorem strip_of_stripsTo {line core : List Char} (h : StripsTo line core) : strip line = core := by
  obtain ⟨before, behind, rfl, hbefore, hbehind, hhead, hlast⟩ := h
  have hbehind' : ∀ c ∈ behind.reverse, isBlank c = true := fun c hc => hbehind c (List.mem_reverse.mp hc)
  rw [strip]
  cases core with
  | nil =>
    -- nothing but blanks
    have hblanks : ∀ c ∈ before ++ behind, isBlank c = true := List.forall_mem_append.mpr ⟨hbefore, hbehind⟩
    have hall := @dropWhile_blanks (before ++ behind) [] hblanks (by simp)
    rw [List.append_nil] at hall
    rw [List.nil_append, hall]
    rfl
  | cons c core =>
    rw [dropWhile_blanks hbefore (by simpa using hhead), List.reverse_append,
      dropWhile_blanks hbehind' (by rwa [List.head?_reverse]), List.reverse_reverse]

theorem stripsTo_strip (line : List Char) : StripsTo line (strip line) := by
  obtain ⟨kept, hkept⟩ : ∃ kept, kept = line.dropWhile isBlank := ⟨_, rfl⟩
  have hline : line.takeWhile isBlank ++ kept = line := hkept ▸ List.takeWhile_append_dropWhile
  have hsplit : (kept.reverse.dropWhile isBlank).reverse ++ (kept.reverse.takeWhile isBlank).reverse = kept := by
    rw [← List.reverse_append, List.takeWhile_append_dropWhile, List.reverse_reverse]
  rw [strip, ← hkept]
  refine ⟨line.takeWhile isBlank, (kept.reverse.takeWhile isBlank).reverse, ?_, ?_, ?_, ?_, ?_⟩
  · rw [hsplit, hline]
  · exact fun c hc => List.mem_takeWhile_imp hc
  · exact fun c hc => List.mem_takeWhile_imp (List.mem_reverse.mp hc)
  · intro c hc
    have hhead : c ∈ kept.head? := by
      rw [← hsplit, List.head?_append, Option.mem_def.mp hc]
      rfl
    exact head?_dropWhile isBlank line c (hkept ▸ hhead)
  · intro c hc
    rw [List.getLast?_reverse] at hc
    exact head?_dropWhile isBlank kept.reverse c hc

theorem strip_eq_iff {line core : List Char} : strip line = core ↔ StripsTo line core := by
  constructor
  · rintro rfl
    exact stripsTo_strip line
  · exact strip_of_stripsTo

/-! ## What an input enters -/

/-- The texts on the lines of an input, without the blanks at their ends, the empty ones left out. -/
def Enters (input : String) (entries : List String) : Prop :=
  ∃ lines texts, BreaksInto input.toList lines ∧ List.Forall₂ StripsTo lines texts ∧
    entries = (texts.map String.ofList).filter (· ≠ "")

theorem forall₂_stripsTo_iff {lines texts : List (List Char)} :
    List.Forall₂ StripsTo lines texts ↔ lines.map strip = texts := by
  have heq : StripsTo = fun line core => strip line = core := by
    funext line core
    exact propext strip_eq_iff.symm
  rw [heq, ← List.forall₂_map_left_iff, List.forall₂_eq_eq_eq]

theorem enters_iff {input : String} {entries : List String} :
    Enters input entries ↔ entries = (strippedLines input.toList).map String.ofList := by
  have hempty : ∀ text : List Char, decide (String.ofList text ≠ "") = !text.isEmpty := by
    intro text
    cases text <;> simp
  have hkeep : ∀ texts : List (List Char), (texts.map String.ofList).filter (· ≠ "") =
      (texts.filter (!·.isEmpty)).map String.ofList := by
    intro texts
    rw [List.filter_map]
    exact congrArg _ (List.filter_congr fun text _ => hempty text)
  simp only [Enters, ← lines_eq_iff, forall₂_stripsTo_iff, exists_and_left, exists_eq_left', hkeep]
  rfl

theorem existsUnique_enters (input : String) : ∃! entries, Enters input entries :=
  ⟨_, enters_iff.mpr rfl, fun _ h => enters_iff.mp h⟩

end Calculator.Text
