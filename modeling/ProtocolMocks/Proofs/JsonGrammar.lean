import Mathlib.Data.String.Basic
import ProtocolMocks.Json

/-!
# The grammar of JSON texts

Which texts spell a value, with blanks wherever they may stand, and that the printed form of a value
is one of them. A number is a natural number without leading zeros, and an escape by number stands
for one character; spellings with other numbers or escapes are left out. Lists and objects differ in
their items alone, so how an item is spelled is a parameter of their rules.
-/

namespace ProtocolMocks.Json

/-- The escapes that a letter or a sign stands for. -/
def shortEscapes : List (Char × Char) :=
  [('"', '"'), ('\\', '\\'), ('/', '/'), ('b', '\x08'), ('f', '\x0c'), ('n', '\n'), ('r', '\r'),
   ('t', '\t')]

/-- The value of a hexadecimal digit. -/
def hexValue? (c : Char) : Option Nat :=
  if c.isDigit then some (c.toNat - '0'.toNat)
  else if 'a' ≤ c ∧ c ≤ 'f' then some (c.toNat - 'a'.toNat + 10)
  else if 'A' ≤ c ∧ c ≤ 'F' then some (c.toNat - 'A'.toNat + 10)
  else none

/-- The number that four hexadecimal digits stand for. -/
def hexNumber? (h₁ h₂ h₃ h₄ : Char) : Option Nat := do
  return 4096 * (← hexValue? h₁) + 256 * (← hexValue? h₂) + 16 * (← hexValue? h₃) +
    (← hexValue? h₄)

/-- The spellings of a character inside a text. -/
inductive SpellsChar (c : Char) : List Char → Prop
  | plain (hquote : c ≠ '"') (hbackslash : c ≠ '\\') (hcontrol : 0x20 ≤ c.toNat) : SpellsChar c [c]
  | short {e : Char} (h : (e, c) ∈ shortEscapes) : SpellsChar c ['\\', e]
  | number {h₁ h₂ h₃ h₄ : Char} (h : hexNumber? h₁ h₂ h₃ h₄ = some c.toNat) :
      SpellsChar c ['\\', 'u', h₁, h₂, h₃, h₄]

/-- The spellings of a text between its quotes. -/
inductive SpellsInside : List Char → List Char → Prop
  | nil : SpellsInside [] []
  | cons {c : Char} {cs part parts : List Char} (hc : SpellsChar c part)
      (hcs : SpellsInside cs parts) : SpellsInside (c :: cs) (part ++ parts)

/-- The blanks that may stand between the parts of a value. -/
def isSpace (c : Char) : Bool := c = ' ' || c = '\n' || c = '\r' || c = '\t'

/-- There is nothing but blanks. -/
def Blanks (cs : List Char) : Prop := ∀ c ∈ cs, isSpace c = true

section

variable {α : Type} (spells : α → List Char → Prop)

/-- The items after the first one, each after a comma. -/
inductive SpellsMore : List α → List Char → Prop
  | nil : SpellsMore [] []
  | cons {a : α} {as : List α} {before blanks part more : List Char} (hbefore : Blanks before)
      (hblanks : Blanks blanks) (ha : spells a part) (has : SpellsMore as more) :
      SpellsMore (a :: as) (before ++ ',' :: blanks ++ part ++ more)

/-- Items with commas between them. -/
inductive SpellsItems : List α → List Char → Prop
  | nil : SpellsItems [] []
  | cons {a : α} {as : List α} {blanks part more : List Char} (hblanks : Blanks blanks)
      (ha : spells a part) (has : SpellsMore spells as more) :
      SpellsItems (a :: as) (blanks ++ part ++ more)

/-- A key, a colon and a value. -/
inductive SpellsMember : String × α → List Char → Prop
  | mk {key : String} {a : α} {inside before blanks part : List Char}
      (hkey : SpellsInside key.toList inside) (hbefore : Blanks before) (hblanks : Blanks blanks)
      (ha : spells a part) :
      SpellsMember (key, a) ('"' :: inside ++ '"' :: before ++ ':' :: blanks ++ part)

end

/-- The spellings of a value. -/
inductive Spells : Json → List Char → Prop
  | text {value : String} {inside : List Char} (h : SpellsInside value.toList inside) :
      Spells (.text value) ('"' :: inside ++ ['"'])
  | number (n : Nat) : Spells (.number n) (Nat.toDigits 10 n)
  | list {items : List Json} {inner blanks : List Char} (hitems : SpellsItems Spells items inner)
      (hblanks : Blanks blanks) : Spells (.list items) ('[' :: inner ++ blanks ++ [']'])
  | object {members : List (String × Json)} {inner blanks : List Char}
      (hmembers : SpellsItems (SpellsMember Spells) members inner) (hblanks : Blanks blanks) :
      Spells (.object members) ('\x7b' :: inner ++ blanks ++ ['\x7d'])

theorem blanks_nil : Blanks [] := nofun

/-- A control character has two digits that stand for it. -/
theorem hexNumber?_of_lt {n : Nat} (h : n < 0x20) :
    hexNumber? '0' '0' (hexDigit (n / 16)) (hexDigit (n % 16)) = some n := by
  revert n
  decide

/-- The printed form of a character is one of its spellings. -/
theorem spellsChar_escapeChar (c : Char) : SpellsChar c (escapeChar c) := by
  unfold escapeChar
  split_ifs with hquote hbackslash hnewline hreturn htab hback hfeed hcontrol
  · exact .short (by rw [hquote]; decide)
  · exact .short (by rw [hbackslash]; decide)
  · exact .short (by rw [hnewline]; decide)
  · exact .short (by rw [hreturn]; decide)
  · exact .short (by rw [htab]; decide)
  · exact .short (by rw [hback]; decide)
  · exact .short (by rw [hfeed]; decide)
  · exact .number (hexNumber?_of_lt hcontrol)
  · exact .plain hquote hbackslash (Nat.not_lt.1 hcontrol)

/-- The printed form of a text, character by character, spells the text. -/
theorem spellsInside_escape (cs : List Char) : SpellsInside cs (cs.flatMap escapeChar) := by
  induction cs with
  | nil => exact .nil
  | cons c cs ih => exact .cons (spellsChar_escapeChar c) ih

/-- The printed form of a text stands between quotes. -/
theorem toList_quote (value : String) :
    (quote value).toList = '"' :: value.toList.flatMap escapeChar ++ ['"'] := by
  rw [quote, String.toList_ofList]

/-- A line break with its indentation is blank. -/
theorem blanks_newline (level : Nat) : Blanks (newline level).toList := by
  intro c hc
  simp only [newline, String.toList_append, String.toList_ofList, List.mem_append,
    List.mem_replicate] at hc
  rcases hc with hc | ⟨-, rfl⟩
  · rw [List.mem_singleton.1 hc]
    decide
  · decide

theorem blanks_space : Blanks [' '] := by
  intro c hc
  rw [List.mem_singleton.1 hc]
  decide

mutual

/-- The printed form of a value spells the value at every level of indentation. -/
theorem spells_render (level : Nat) : ∀ value, Spells value (render level value).toList
  | .text value => by
    rw [render, toList_quote]
    exact .text (spellsInside_escape _)
  | .number n => by
    rw [render, Nat.toString_eq_ofList_toDigits, String.toList_ofList]
    exact .number n
  | .list [] => by
    rw [render]
    exact .list .nil blanks_nil
  | .list (item :: items) => by
    have hitem := spells_render (level + 1) item
    have hitems := spells_renderItems (level + 1) items
    have h : Spells (.list (item :: items)) _ :=
      .list (.cons (blanks_newline (level + 1)) hitem hitems) (blanks_newline level)
    rw [render]
    simpa using h
  | .object [] => by
    rw [render]
    exact .object .nil blanks_nil
  | .object (member :: members) => by
    have hmember := spells_renderMember (level + 1) member
    have hmembers := spells_renderMembers (level + 1) members
    have h : Spells (.object (member :: members)) _ :=
      .object (.cons (blanks_newline (level + 1)) hmember hmembers) (blanks_newline level)
    rw [render]
    simpa using h

/-- The printed form of a member spells its key and its value. -/
theorem spells_renderMember (level : Nat) :
    ∀ member, SpellsMember Spells member (renderMember level member).toList
  | (key, value) => by
    have h : SpellsMember Spells (key, value) _ :=
      .mk (spellsInside_escape key.toList) blanks_nil blanks_space (spells_render level value)
    rw [renderMember, String.toList_append, String.toList_append, toList_quote]
    simpa using h

/-- The printed forms of the items after the first one spell these items. -/
theorem spells_renderItems (level : Nat) :
    ∀ items, SpellsMore Spells items (renderItems level items).toList
  | [] => by
    rw [renderItems]
    exact .nil
  | item :: items => by
    have h : SpellsMore Spells (item :: items) _ :=
      .cons blanks_nil (blanks_newline level) (spells_render level item)
        (spells_renderItems level items)
    rw [renderItems]
    simpa using h

/-- The printed forms of the members after the first one spell these members. -/
theorem spells_renderMembers (level : Nat) :
    ∀ members, SpellsMore (SpellsMember Spells) members (renderMembers level members).toList
  | [] => by
    rw [renderMembers]
    exact .nil
  | member :: members => by
    have h : SpellsMore (SpellsMember Spells) (member :: members) _ :=
      .cons blanks_nil (blanks_newline level) (spells_renderMember level member)
        (spells_renderMembers level members)
    rw [renderMembers]
    simpa using h

end

end ProtocolMocks.Json
