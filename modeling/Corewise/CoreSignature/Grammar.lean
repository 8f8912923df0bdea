import Corewise.CoreSignature.Parser
/-!
The grammar of core signatures as relations between characters and what they denote, independent
of the reader.
-/

namespace Corewise.CoreSignature.Grammar

/-- Any number of blanks. -/
def Blanks (cs : List Char) : Prop := ∀ c ∈ cs, isBlank c = true

/-- An identifier. -/
def Identifier (cs : List Char) : Prop :=
  ∃ c rest, cs = c :: rest ∧ isNameStart c = true ∧ ∀ d ∈ rest, isNameRest d = true

/-- An identifier with blanks around it. -/
inductive Name : List Char → String → Prop where
  | intro {before word after : List Char} : Blanks before → Identifier word → Blanks after →
      Name (before ++ word ++ after) (String.ofList word)

/-- One or more names between commas. -/
inductive Names : List Char → Core → Prop where
  | one {cs : List Char} {n : String} : Name cs n → Names cs [n]
  | cons {cs rest : List Char} {n : String} {ns : Core} :
      Name cs n → Names rest ns → Names (cs ++ ',' :: rest) (n :: ns)

/-- Parentheses around nothing, or around names with an optional comma after the last. -/
inductive Group : List Char → Core → Prop where
  | empty : Group ['(', ')'] []
  | names {cs : List Char} {ns : Core} : Names cs ns → Group ('(' :: (cs ++ [')'])) ns
  | trailing {cs : List Char} {ns : Core} : Names cs ns → Group ('(' :: (cs ++ [',', ')'])) ns

/-- A group with blanks around it. -/
inductive PaddedGroup : List Char → Core → Prop where
  | intro {before cs after : List Char} {core : Core} :
      Blanks before → Group cs core → Blanks after → PaddedGroup (before ++ cs ++ after) core

/-- One or more groups between commas. -/
inductive Groups : List Char → List Core → Prop where
  | one {cs : List Char} {core : Core} : PaddedGroup cs core → Groups cs [core]
  | cons {cs rest : List Char} {core : Core} {cores : List Core} :
      PaddedGroup cs core → Groups rest cores → Groups (cs ++ ',' :: rest) (core :: cores)

/-- Groups on both sides of an arrow. -/
inductive Arrow : List Char → List Core → List Core → Prop where
  | intro {left right : List Char} {inputs outputs : List Core} :
      Groups left inputs → Groups right outputs →
      Arrow (left ++ '-' :: '>' :: right) inputs outputs

end Corewise.CoreSignature.Grammar
