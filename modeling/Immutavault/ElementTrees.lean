import Mathlib.Data.List.Basic

/-!
# Trees of elements

A document is a tree of elements. An element has a tag, attributes in the order in which
they are written, the text before its first child and its children. The name of a tag or
of an attribute may begin with a namespace, which a closing bracket ends.

A search by local name accepts a name that is the given one, or that ends in the bracket
and the given one. Searching below an element finds its descendants at every depth and
not the element itself, in the order of the document.
-/

namespace Immutavault.ElementTrees

/-- The character that ends a namespace. -/
class Namespaced (χ : Type) where
  bracket : χ

inductive Element (χ : Type) where
  | element (tag : List χ) (attributes : List (List χ × List χ)) (text : Option (List χ))
      (children : List (Element χ))

variable {χ : Type}

namespace Element

def tag : Element χ → List χ
  | .element tag _ _ _ => tag

def attributes : Element χ → List (List χ × List χ)
  | .element _ attributes _ _ => attributes

def text : Element χ → Option (List χ)
  | .element _ _ text _ => text

def children : Element χ → List (Element χ)
  | .element _ _ _ children => children

mutual

/-- Every element below one, each before the elements below it. -/
def descendants : Element χ → List (Element χ)
  | .element _ _ _ children => descendantsOf children

def descendantsOf : List (Element χ) → List (Element χ)
  | [] => []
  | child :: rest => child :: (child.descendants ++ descendantsOf rest)

end

/-- An element stands somewhere below another. -/
inductive Descendant : Element χ → Element χ → Prop
  | child {parent element : Element χ} (member : element ∈ parent.children) : Descendant parent element
  | deeper {parent middle element : Element χ} (member : middle ∈ parent.children)
      (under : Descendant middle element) : Descendant parent element

/-- What stands below the elements of a list are those elements and what stands below them. -/
theorem mem_descendantsOf {found : Element χ} {elements : List (Element χ)} :
    found ∈ descendantsOf elements ↔ ∃ element ∈ elements, found = element ∨ found ∈ element.descendants := by
  induction elements with
  | nil => simp [descendantsOf]
  | cons element rest inductionHypothesis =>
    simp only [descendantsOf, List.mem_cons, List.mem_append, inductionHypothesis,
      exists_eq_or_imp, or_assoc]

theorem descendants_eq (element : Element χ) : element.descendants = descendantsOf element.children := by
  cases element
  rfl

/-- The list of the elements below one is exactly that. -/
theorem mem_descendants {found element : Element χ} : found ∈ element.descendants ↔ Descendant element found := by
  constructor
  · intro member
    obtain ⟨tag, attributes, text, children⟩ := element
    rw [descendants_eq] at member
    obtain ⟨child, listed, same | under⟩ := mem_descendantsOf.mp member
    · exact same ▸ Descendant.child listed
    · exact Descendant.deeper listed (mem_descendants.mp under)
  · intro under
    induction under with
    | child member =>
      rw [descendants_eq]
      exact mem_descendantsOf.mpr ⟨_, member, .inl rfl⟩
    | deeper member _ inductionHypothesis =>
      rw [descendants_eq]
      exact mem_descendantsOf.mpr ⟨_, member, .inr inductionHypothesis⟩
termination_by sizeOf element
decreasing_by
  have smaller : sizeOf child < sizeOf children := List.sizeOf_lt_of_mem listed
  simp only [Element.element.sizeOf_spec]
  omega

section Naming

variable [Namespaced χ] [DecidableEq χ]

/-- A name with or without a namespace has this local part. -/
def isLocal (suffix name : List χ) : Bool :=
  name = suffix || (Namespaced.bracket :: suffix).isSuffixOf name

/-- The elements below one whose tags have a local name. -/
def findall (suffix : List χ) (element : Element χ) : List (Element χ) :=
  element.descendants.filter fun found => isLocal suffix found.tag

theorem mem_findall {suffix : List χ} {found element : Element χ} :
    found ∈ element.findall suffix ↔ Descendant element found ∧ isLocal suffix found.tag = true := by
  rw [findall, List.mem_filter, mem_descendants]

/-- The value of the first attribute with a local name. -/
def localAttribute (suffix : List χ) (element : Element χ) : Option (List χ) :=
  (element.attributes.find? fun entry => isLocal suffix entry.1).map Prod.snd

end Naming

section Children

variable [DecidableEq χ]

/-- The children with a tag. -/
def childrenTagged (tag : List χ) (element : Element χ) : List (Element χ) :=
  element.children.filter fun child => child.tag = tag

/-- The first child with a tag. -/
def find (tag : List χ) (element : Element χ) : Option (Element χ) :=
  element.children.find? fun child => child.tag = tag

/-- The text of the first child with a tag; a child without a text has the empty one. -/
def findtext (tag : List χ) (element : Element χ) : Option (List χ) :=
  (element.find tag).map fun child => child.text.getD []

/-- The value of the attribute with exactly a name. -/
def get (name : List χ) (element : Element χ) : Option (List χ) :=
  (element.attributes.find? fun entry => entry.1 = name).map Prod.snd

end Children

end Element

end Immutavault.ElementTrees
