import Mathlib.Data.List.Basic
import Mathlib.Data.List.Forall2

/-!
# Texts that are joined and read part by part

Many texts are lists of parts with a separator between them. A reader splits such a text
and reads every part, and it gives up when one of them cannot be read. The characters of
the joined text are those of its parts and of the separator, and what is read is a list
that stands to the parts, one by one, as a value to its text.
-/

namespace Immutavault.SeparatedTexts

section Joining

variable {α : Type} {separator : List α} {parts : List (List α)} {mark : α}

/-- Marks of joined texts are the separator's or of one of the parts. -/
theorem mem_of_mem_intercalate (member : mark ∈ separator.intercalate parts) :
    mark ∈ separator ∨ ∃ part ∈ parts, mark ∈ part := by
  induction parts with
  | nil => simp at member
  | cons part rest inductionHypothesis =>
    cases rest with
    | nil => exact Or.inr ⟨part, List.mem_cons_self, by simpa using member⟩
    | cons second further =>
      rw [List.intercalate_cons_cons, List.mem_append, List.mem_append] at member
      rcases member with (here | between) | later
      · exact Or.inr ⟨part, List.mem_cons_self, here⟩
      · exact Or.inl between
      · rcases inductionHypothesis later with between | ⟨other, listed, inside⟩
        · exact Or.inl between
        · exact Or.inr ⟨other, List.mem_cons_of_mem _ listed, inside⟩

/-- Joined texts hold the marks of each part. -/
theorem mem_intercalate {part : List α} (listed : part ∈ parts) (inside : mark ∈ part) :
    mark ∈ separator.intercalate parts := by
  induction parts with
  | nil => cases listed
  | cons first rest inductionHypothesis =>
    cases rest with
    | nil =>
      obtain rfl := List.mem_singleton.mp listed
      simpa using inside
    | cons second further =>
      rw [List.intercalate_cons_cons, List.mem_append, List.mem_append]
      rcases List.mem_cons.mp listed with rfl | later
      · exact Or.inl (Or.inl inside)
      · exact Or.inr (inductionHypothesis later)

theorem not_mem_intercalate (other : mark ∉ separator) (absent : ∀ part ∈ parts, mark ∉ part) :
    mark ∉ separator.intercalate parts := by
  intro member
  rcases mem_of_mem_intercalate member with between | ⟨part, listed, inside⟩
  · exact other between
  · exact absent part listed inside

theorem separator_mem_intercalate (several : 2 ≤ parts.length) (member : mark ∈ separator) :
    mark ∈ separator.intercalate parts := by
  cases parts with
  | nil => cases several
  | cons first rest =>
    cases rest with
    | nil => simp at several
    | cons second further =>
      rw [List.intercalate_cons_cons, List.mem_append, List.mem_append]
      exact Or.inl (Or.inr member)

end Joining

section Parsing

variable {α β : Type} {parse : α → Option β} {texts : List α} {values : List β}

/-- A list is read when its parts are read one by one. -/
theorem mapM_eq_some_iff :
    texts.mapM parse = some values ↔
      List.Forall₂ (fun text value => parse text = some value) texts values := by
  constructor
  · intro read
    induction texts generalizing values with
    | nil =>
      cases read
      exact .nil
    | cons text rest inductionHypothesis =>
      obtain ⟨value, here, others, later, rfl⟩ : ∃ value, parse text = some value ∧
          ∃ others, rest.mapM parse = some others ∧ value :: others = values := by
        simpa [Option.bind_eq_some_iff] using read
      exact .cons here (inductionHypothesis later)
  · intro each
    induction each with
    | nil => rfl
    | cons here rest inductionHypothesis => simp [here, inductionHypothesis]

theorem length_mapM (read : texts.mapM parse = some values) : values.length = texts.length :=
  (mapM_eq_some_iff.mp read).length_eq.symm

theorem mem_of_mapM (read : texts.mapM parse = some values) {value : β} (member : value ∈ values) :
    ∃ text ∈ texts, parse text = some value := by
  obtain ⟨index, bound, rfl⟩ := List.getElem_of_mem member
  have within : index < texts.length := length_mapM read ▸ bound
  exact ⟨texts[index], List.getElem_mem within,
    (mapM_eq_some_iff.mp read).get within bound⟩

/-- Every part of what is read can be read. -/
theorem parsed_of_mem (read : texts.mapM parse = some values) {text : α} (member : text ∈ texts) :
    ∃ value, parse text = some value := by
  obtain ⟨index, bound, rfl⟩ := List.getElem_of_mem member
  have within : index < values.length := (length_mapM read).symm ▸ bound
  exact ⟨values[index], (mapM_eq_some_iff.mp read).get bound within⟩

/-- What is written one by one is read as a whole. -/
theorem mapM_texts {text : β → α} (each : ∀ value ∈ values, parse (text value) = some value) :
    (values.map text).mapM parse = some values := by
  rw [mapM_eq_some_iff, List.forall₂_map_left_iff, List.forall₂_same]
  exact each

end Parsing

end Immutavault.SeparatedTexts
