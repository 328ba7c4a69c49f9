import ProtocolMocks.Data.Char
import ProtocolMocks.Proofs.JsonGrammar
import ProtocolMocks.Proofs.Lexical

/-!
# Reading JSON texts

A reader that accepts the texts of the grammar and no others, each for the one value that it spells
(`read?_eq_some_iff`). It takes a part off the front of a text at a time; how many parts it may take
is bounded by the length of the text. What is printed is therefore read back, and different values
are never printed alike.
-/

namespace ProtocolMocks.Json

/-- Takes one character of a text off the front. -/
def takeChar? : List Char → Option (Char × List Char)
  | '\\' :: 'u' :: h₁ :: h₂ :: h₃ :: h₄ :: cs => do
    let n ← hexNumber? h₁ h₂ h₃ h₄
    if n.isValidChar then some (Char.ofNat n, cs) else none
  | '\\' :: e :: cs => (shortEscapes.lookup e).map (·, cs)
  | c :: cs => if c = '"' ∨ c = '\\' ∨ c.toNat < 0x20 then none else some (c, cs)
  | [] => none

/-- Takes a text and its closing quote off the front. -/
def takeInside? : Nat → List Char → Option (List Char × List Char)
  | 0, _ => none
  | fuel + 1, cs =>
    match cs with
    | '"' :: cs => some ([], cs)
    | cs => do
      let (c, cs) ← takeChar? cs
      let (taken, cs) ← takeInside? fuel cs
      return (c :: taken, cs)

/-- Takes a natural number without leading zeros off the front. -/
def takeNumber? (cs : List Char) : Option (Nat × List Char) :=
  let digits := cs.takeWhile Char.isDigit
  let n := Nat.ofDigitChars 10 digits 0
  if digits = Nat.toDigits 10 n then some (n, cs.dropWhile Char.isDigit) else none

/-- Leaves out the blanks at the front. -/
def skip (cs : List Char) : List Char := cs.dropWhile isSpace

section

variable {α : Type} (take : List Char → Option (α × List Char)) (close : Char)

/-- Takes the items after the first one and the closing mark off the front. -/
def takeMore? : Nat → List Char → Option (List α × List Char)
  | 0, _ => none
  | fuel + 1, cs =>
    match skip cs with
    | [] => none
    | c :: cs =>
      if c = close then some ([], cs)
      else if c = ',' then do
        let (a, cs) ← take cs
        let (as, cs) ← takeMore? fuel cs
        return (a :: as, cs)
      else none

/-- Takes all items and the closing mark off the front. -/
def takeItems? (fuel : Nat) (cs : List Char) : Option (List α × List Char) :=
  if (skip cs).head? = some close then some ([], (skip cs).tail)
  else do
    let (a, cs) ← take cs
    let (as, cs) ← takeMore? take close fuel cs
    return (a :: as, cs)

/-- Takes a key, a colon and a value off the front. -/
def takeMember? (fuel : Nat) (cs : List Char) : Option ((String × α) × List Char) := do
  match skip cs with
  | '"' :: cs =>
    let (key, cs) ← takeInside? fuel cs
    match skip cs with
    | ':' :: cs =>
      let (a, cs) ← take cs
      return ((String.ofList key, a), cs)
    | _ => none
  | _ => none

end

/-- Takes a value off the front. -/
def take? : Nat → List Char → Option (Json × List Char)
  | 0, _ => none
  | fuel + 1, cs =>
    match skip cs with
    | '"' :: cs => (takeInside? fuel cs).map fun (inside, cs) => (.text (String.ofList inside), cs)
    | '[' :: cs => (takeItems? (take? fuel) ']' fuel cs).map fun (items, cs) => (.list items, cs)
    | '\x7b' :: cs =>
      (takeItems? (takeMember? (take? fuel) fuel) '\x7d' fuel cs).map fun (members, cs) =>
        (.object members, cs)
    | cs => (takeNumber? cs).map fun (n, cs) => (.number n, cs)

/-- Reads the only value in a text. -/
def read? (source : String) : Option Json := do
  let (value, rest) ← take? (source.length + 1) source.toList
  if (skip rest).isEmpty then some value else none

/-- A character that was taken is spelled by what was taken off. -/
theorem exists_spellsChar {c : Char} {cs rest : List Char} (h : takeChar? cs = some (c, rest)) :
    ∃ part, SpellsChar c part ∧ cs = part ++ rest := by
  unfold Json.takeChar? at h
  split at h
  · obtain ⟨n, hn, h⟩ := Option.bind_eq_some_iff.1 h
    split_ifs at h with hvalid
    cases h
    refine ⟨_, .number ?_, rfl⟩
    rw [hn, Char.ofNat, dif_pos hvalid]
    rfl
  · obtain ⟨d, hd, h⟩ := Option.map_eq_some_iff.1 h
    cases h
    obtain ⟨front, back, hentries, -⟩ := List.lookup_eq_some_iff.1 hd
    refine ⟨_, .short ?_, rfl⟩
    rw [hentries]
    exact List.mem_append_right _ List.mem_cons_self
  · split_ifs at h with hplain
    cases h
    simp only [not_or, Nat.not_lt] at hplain
    exact ⟨_, .plain hplain.1 hplain.2.1 hplain.2.2, rfl⟩
  · cases h

/-- A text that was taken is spelled by what stands in front of its closing quote. -/
theorem exists_spellsInside {fuel : Nat} {taken cs rest : List Char}
    (h : takeInside? fuel cs = some (taken, rest)) :
    ∃ part, SpellsInside taken part ∧ cs = part ++ '"' :: rest := by
  induction fuel generalizing taken cs with
  | zero => cases h
  | succ fuel ih =>
    unfold Json.takeInside? at h
    split at h
    · cases h
      exact ⟨[], .nil, rfl⟩
    · obtain ⟨⟨c, cs⟩, hc, h⟩ := Option.bind_eq_some_iff.1 h
      obtain ⟨⟨inside, cs⟩, hcs, h⟩ := Option.bind_eq_some_iff.1 h
      cases h
      obtain ⟨part, hpart, rfl⟩ := exists_spellsChar hc
      obtain ⟨parts, hparts, rfl⟩ := ih hcs
      exact ⟨_, .cons hpart hparts, by rw [List.append_assoc]⟩

/-- A number that was taken stood there in decimal notation. -/
theorem eq_of_takeNumber? {n : Nat} {cs rest : List Char} (h : takeNumber? cs = some (n, rest)) :
    cs = Nat.toDigits 10 n ++ rest := by
  unfold takeNumber? at h
  extract_lets digits number at h
  split_ifs at h with hdigits
  obtain ⟨hnumber, hrest⟩ := Prod.mk.inj (Option.some.inj h)
  rw [← hnumber, ← hrest, ← hdigits, List.takeWhile_append_dropWhile]

/-- Nothing but blanks is skipped. -/
theorem exists_eq_append_skip (cs : List Char) : ∃ blanks, Blanks blanks ∧ cs = blanks ++ skip cs :=
  ⟨cs.takeWhile isSpace, fun _ hc => List.all_eq_true.1 List.all_takeWhile _ hc,
    List.takeWhile_append_dropWhile.symm⟩

/-- What is taken off the front is spelled there, after blanks. -/
def Sound {α : Type} (take : List Char → Option (α × List Char)) (spells : α → List Char → Prop) :
    Prop :=
  ∀ cs a rest, take cs = some (a, rest) →
    ∃ blanks part, Blanks blanks ∧ spells a part ∧ cs = blanks ++ part ++ rest

section

variable {α : Type} {take : List Char → Option (α × List Char)} {spells : α → List Char → Prop}

/-- The further items that were taken are spelled by what stands in front of the closing bracket, if
single items are sound. -/
theorem exists_spellsMore (htake : Sound take spells) {close : Char} {fuel : Nat}
    {cs rest : List Char} {as : List α} (h : takeMore? take close fuel cs = some (as, rest)) :
    ∃ more blanks, SpellsMore spells as more ∧ Blanks blanks ∧
      cs = more ++ blanks ++ close :: rest := by
  induction fuel generalizing cs as with
  | zero => cases h
  | succ fuel ih =>
    obtain ⟨before, hbefore, hcs⟩ := exists_eq_append_skip cs
    rw [takeMore?] at h
    cases hskip : skip cs with
    | nil =>
      rw [hskip] at h
      cases h
    | cons c tail =>
      rw [hskip] at h hcs
      simp only at h
      split_ifs at h with hclose hcomma
      · cases h
        subst hclose
        exact ⟨[], before, .nil, hbefore, hcs⟩
      · obtain ⟨⟨a, tail⟩, ha, h⟩ := Option.bind_eq_some_iff.1 h
        obtain ⟨⟨as, tail⟩, has, h⟩ := Option.bind_eq_some_iff.1 h
        cases h
        obtain ⟨blanks, part, hblanks, hpart, rfl⟩ := htake _ _ _ ha
        obtain ⟨more, last, hmore, hlast, rfl⟩ := ih has
        refine ⟨_, last, .cons hbefore hblanks hpart hmore, hlast, ?_⟩
        rw [hcs, hcomma]
        simp

/-- The items that were taken are spelled by what stands in front of the closing bracket, if single
items are sound. -/
theorem exists_spellsItems (htake : Sound take spells) {close : Char} {fuel : Nat}
    {cs rest : List Char} {as : List α} (h : takeItems? take close fuel cs = some (as, rest)) :
    ∃ inner blanks, SpellsItems spells as inner ∧ Blanks blanks ∧
      cs = inner ++ blanks ++ close :: rest := by
  rw [takeItems?] at h
  split_ifs at h with hclose
  · cases h
    obtain ⟨blanks, hblanks, hcs⟩ := exists_eq_append_skip cs
    obtain ⟨tail, htail⟩ := List.head?_eq_some_iff.1 hclose
    refine ⟨[], blanks, .nil, hblanks, ?_⟩
    rw [htail] at hcs ⊢
    exact hcs
  · obtain ⟨⟨a, tail⟩, ha, h⟩ := Option.bind_eq_some_iff.1 h
    obtain ⟨⟨as, tail⟩, has, h⟩ := Option.bind_eq_some_iff.1 h
    cases h
    obtain ⟨blanks, part, hblanks, hpart, rfl⟩ := htake _ _ _ ha
    obtain ⟨more, last, hmore, hlast, rfl⟩ := exists_spellsMore htake has
    exact ⟨_, last, .cons hblanks hpart hmore, hlast, by simp⟩

/-- A member that was taken is spelled by its key, a colon and its value. -/
theorem sound_takeMember? (htake : Sound take spells) (fuel : Nat) :
    Sound (takeMember? take fuel) (SpellsMember spells) := by
  intro cs member rest h
  obtain ⟨front, hfront, hcs⟩ := exists_eq_append_skip cs
  rw [takeMember?] at h
  split at h
  · next tail hskip =>
    obtain ⟨⟨key, behind⟩, hkey, hcolon⟩ := Option.bind_eq_some_iff.1 h
    obtain ⟨inside, hinside, rfl⟩ := exists_spellsInside hkey
    obtain ⟨before, hbefore, hbehind⟩ := exists_eq_append_skip behind
    simp only at hcolon
    split at hcolon
    · next value hvalue =>
      obtain ⟨⟨a, last⟩, ha, hmember⟩ := Option.bind_eq_some_iff.1 hcolon
      cases hmember
      obtain ⟨blanks, part, hblanks, hpart, rfl⟩ := htake _ _ _ ha
      have hkey : SpellsInside (String.ofList key).toList inside := by
        rwa [String.toList_ofList]
      refine ⟨front, _, hfront, .mk hkey hbefore hblanks hpart, ?_⟩
      rw [hcs, hskip, hbehind, hvalue]
      simp
    · cases hcolon
  · cases h

end

/-- A value that was taken is spelled by what was taken off, at any amount of fuel. -/
theorem sound_take? (fuel : Nat) : Sound (take? fuel) Spells := by
  induction fuel with
  | zero => nofun
  | succ fuel ih =>
    intro cs value rest h
    obtain ⟨front, hfront, hcs⟩ := exists_eq_append_skip cs
    rw [take?] at h
    split at h
    · next tail hskip =>
      obtain ⟨⟨inside, tail⟩, hinside, h⟩ := Option.map_eq_some_iff.1 h
      cases h
      obtain ⟨part, hpart, rfl⟩ := exists_spellsInside hinside
      refine ⟨front, _, hfront, .text (by rwa [String.toList_ofList]), ?_⟩
      rw [hcs, hskip]
      simp
    · next tail hskip =>
      obtain ⟨⟨items, tail⟩, hitems, h⟩ := Option.map_eq_some_iff.1 h
      cases h
      obtain ⟨inner, blanks, hinner, hblanks, rfl⟩ := exists_spellsItems ih hitems
      refine ⟨front, _, hfront, .list hinner hblanks, ?_⟩
      rw [hcs, hskip]
      simp
    · next tail hskip =>
      obtain ⟨⟨members, tail⟩, hmembers, h⟩ := Option.map_eq_some_iff.1 h
      cases h
      obtain ⟨inner, blanks, hinner, hblanks, rfl⟩ :=
        exists_spellsItems (sound_takeMember? ih fuel) hmembers
      refine ⟨front, _, hfront, .object hinner hblanks, ?_⟩
      rw [hcs, hskip]
      simp
    · obtain ⟨⟨n, tail⟩, hn, h⟩ := Option.map_eq_some_iff.1 h
      cases h
      refine ⟨front, _, hfront, .number n, ?_⟩
      rw [List.append_assoc, ← eq_of_takeNumber? hn]
      exact hcs

/-- No character is spelled with a quote in front, so a quote in front closes the text. -/
theorem SpellsChar.exists_eq_cons {c : Char} {part : List Char} (h : SpellsChar c part) :
    ∃ d ds, part = d :: ds ∧ d ≠ '"' := by
  cases h with
  | plain hquote => exact ⟨c, [], rfl, hquote⟩
  | short h => exact ⟨_, _, rfl, by decide⟩
  | number h => exact ⟨_, _, rfl, by decide⟩

/-- A character is taken from each of its spellings. -/
theorem SpellsChar.takeChar? {c : Char} {part : List Char} (h : SpellsChar c part)
    (rest : List Char) : takeChar? (part ++ rest) = some (c, rest) := by
  cases h with
  | plain hquote hbackslash hcontrol =>
    have hplain : ¬ (c = '"' ∨ c = '\\' ∨ c.toNat < 0x20) := by
      simp [hquote, hbackslash, hcontrol]
    rw [List.singleton_append, Json.takeChar?, if_neg hplain]
    · rintro _ _ _ _ _ rfl
      exact absurd rfl hbackslash
    · rintro _ _ rfl
      exact absurd rfl hbackslash
  | @short e h =>
    have hall : shortEscapes.all (fun entry =>
        entry.1 != 'u' && shortEscapes.lookup entry.1 == some entry.2) = true := by decide
    have hentry := List.all_eq_true.1 hall _ h
    rw [Bool.and_eq_true, bne_iff_ne, beq_iff_eq] at hentry
    obtain ⟨hu, hlookup⟩ := hentry
    rw [List.cons_append, List.singleton_append, Json.takeChar?, hlookup]
    · rfl
    · rintro _ _ _ _ _ rfl
      exact absurd rfl hu
  | number h =>
    have hvalid : c.toNat.isValidChar := c.valid
    simp [Json.takeChar?, h, hvalid]

/-- A text is taken from each of its spellings if the fuel is enough for the characters. -/
theorem SpellsInside.takeInside? {taken cs : List Char} (h : SpellsInside taken cs) {fuel : Nat}
    (hfuel : cs.length < fuel) (rest : List Char) :
    takeInside? fuel (cs ++ '"' :: rest) = some (taken, rest) := by
  induction h generalizing fuel with
  | nil =>
    obtain ⟨fuel, rfl⟩ := Nat.exists_eq_add_one_of_ne_zero (Nat.ne_of_gt hfuel)
    rfl
  | @cons c cs part parts hc hcs ih =>
    obtain ⟨fuel, rfl⟩ := Nat.exists_eq_add_one_of_ne_zero (Nat.ne_of_gt (Nat.zero_lt_of_lt hfuel))
    obtain ⟨d, ds, rfl, hd⟩ := hc.exists_eq_cons
    have htake := hc.takeChar? (parts ++ '"' :: rest)
    have hlt : parts.length < fuel := by
      simp only [List.length_append, List.length_cons] at hfuel
      omega
    have hrest := ih hlt
    rw [List.append_assoc, Json.takeInside?, htake]
    · simp [hrest]
    · rintro _ heq
      cases heq
      exact hd rfl

/-- A number is taken from its decimal notation in front of anything but a digit. -/
theorem takeNumber?_toDigits (n : Nat) {rest : List Char} (hrest : Stops Char.isDigit rest) :
    takeNumber? (Nat.toDigits 10 n ++ rest) = some (n, rest) := by
  have hdigits : ∀ c ∈ Nat.toDigits 10 n, c.isDigit = true := fun c hc =>
    Nat.isDigit_of_mem_toDigits (by decide) (by decide) hc
  rw [takeNumber?, takeWhile_run hdigits hrest, dropWhile_run hdigits hrest,
    Nat.ofDigitChars_ten_toDigits]
  exact if_pos rfl

/-- Blanks are no digits. -/
theorem isDigit_eq_false_of_isSpace {c : Char} (h : isSpace c = true) : c.isDigit = false := by
  simp only [isSpace, Bool.or_eq_true, decide_eq_true_eq] at h
  rcases h with ((rfl | rfl) | rfl) | rfl <;> decide

/-- Blanks in front of something that does not continue a number do not continue it either. -/
theorem Blanks.stops {blanks rest : List Char} (h : Blanks blanks)
    (hrest : Stops Char.isDigit rest) : Stops Char.isDigit (blanks ++ rest) := by
  cases blanks with
  | nil => exact hrest
  | cons c blanks => exact stops_cons_iff.2 (isDigit_eq_false_of_isSpace (h c List.mem_cons_self))

/-- Blanks are skipped down to the first character that is none. -/
theorem skip_append {blanks : List Char} {c : Char} (h : Blanks blanks) (hc : isSpace c = false)
    (cs : List Char) : skip (blanks ++ c :: cs) = c :: cs :=
  dropWhile_run h (stops_cons_iff.2 hc)

/-- The marks that close a list and an object. -/
def IsClose (c : Char) : Prop := c = ']' ∨ c = '\x7d'

/-- A closing bracket is neither blank, nor a digit, nor a comma. -/
theorem IsClose.apart {c : Char} (h : IsClose c) :
    isSpace c = false ∧ c.isDigit = false ∧ ',' ≠ c := by
  rcases h with rfl | rfl <;> decide

/-- The spelling starts with a mark of its own. -/
def Opens (part : List Char) : Prop :=
  ∃ c cs, part = c :: cs ∧ isSpace c = false ∧ ¬ IsClose c

/-- Whatever blanks stand in front, what is spelled is taken, up to a part that cannot belong to
it. -/
def Takes {α : Type} (take : List Char → Option (α × List Char)) (a : α) (part : List Char) :
    Prop :=
  ∀ blanks rest, Blanks blanks → Stops Char.isDigit rest →
    take (blanks ++ part ++ rest) = some (a, rest)

section

variable {α : Type} {take : List Char → Option (α × List Char)} {spells : α → List Char → Prop}
  {close : Char} {bound : Nat}

/-- Behind an item, neither a comma nor the closing bracket continues a number. -/
theorem SpellsMore.stops {as : List α} {more blanks : List Char} (h : SpellsMore spells as more)
    (hblanks : Blanks blanks) (hclose : IsClose close) (rest : List Char) :
    Stops Char.isDigit (more ++ blanks ++ close :: rest) := by
  have hlast : Stops Char.isDigit (blanks ++ close :: rest) :=
    hblanks.stops (stops_cons_iff.2 hclose.apart.2.1)
  cases h with
  | nil => exact hlast
  | cons hbefore =>
    simp only [List.append_assoc, List.cons_append]
    exact hbefore.stops (stops_cons_iff.2 (by decide))

/-- An item is shorter than what it is an item of, so it is enough that short parts are taken. -/
theorem takeMore?_of_spells
    (htake : ∀ a part, spells a part → part.length < bound → Takes take a part)
    (hclose : IsClose close) {as : List α} {more : List Char} (h : SpellsMore spells as more)
    (hbound : more.length < bound) {fuel : Nat} (hfuel : more.length < fuel) {blanks : List Char}
    (hblanks : Blanks blanks) (rest : List Char) :
    takeMore? take close fuel (more ++ blanks ++ close :: rest) = some (as, rest) := by
  induction h generalizing fuel with
  | nil =>
    obtain ⟨fuel, rfl⟩ := Nat.exists_eq_add_one_of_ne_zero (Nat.ne_of_gt hfuel)
    rw [List.nil_append, takeMore?, skip_append hblanks hclose.apart.1]
    exact if_pos rfl
  | @cons a as before gap part more hbefore hgap ha has ih =>
    obtain ⟨fuel, rfl⟩ := Nat.exists_eq_add_one_of_ne_zero (Nat.ne_of_gt (Nat.zero_lt_of_lt hfuel))
    simp only [List.length_append, List.length_cons] at hbound hfuel
    have hlt : more.length < fuel := by omega
    have hfirst := htake a part ha (by omega) gap _ hgap (has.stops hblanks hclose rest)
    have hmore := ih (by omega) hlt
    have hassoc : before ++ ',' :: gap ++ part ++ more ++ blanks ++ close :: rest =
        before ++ ',' :: (gap ++ part ++ (more ++ blanks ++ close :: rest)) := by simp
    rw [hassoc, takeMore?, skip_append hbefore (by decide)]
    simp only [if_neg hclose.apart.2.2, if_pos, hfirst, hmore, Option.bind_eq_bind,
      Option.bind_some]
    rfl

/-- Items are taken from their spelling if each item is taken from its own and starts with something
that is neither blank nor closes the list. -/
theorem takeItems?_of_spells
    (htake : ∀ a part, spells a part → part.length < bound → Takes take a part)
    (hopens : ∀ a part, spells a part → Opens part) (hclose : IsClose close) {as : List α}
    {inner : List Char} (h : SpellsItems spells as inner) (hbound : inner.length < bound)
    {blanks : List Char} (hblanks : Blanks blanks) (rest : List Char) :
    takeItems? take close bound (inner ++ blanks ++ close :: rest) = some (as, rest) := by
  cases h with
  | nil =>
    rw [List.nil_append, takeItems?, skip_append hblanks hclose.apart.1]
    exact if_pos rfl
  | @cons a as gap part more hgap ha has =>
    simp only [List.length_append] at hbound
    have hlt : more.length < bound := by omega
    have hfirst := htake a part ha (by omega) gap _ hgap (has.stops hblanks hclose rest)
    have hmore := takeMore?_of_spells htake hclose has hlt hlt hblanks rest
    have hassoc : gap ++ part ++ more ++ blanks ++ close :: rest =
        gap ++ part ++ (more ++ blanks ++ close :: rest) := by simp
    have hopen : (skip (gap ++ part ++ (more ++ blanks ++ close :: rest))).head? ≠ some close := by
      obtain ⟨c, cs, rfl, hc, hne⟩ := hopens a part ha
      rw [List.append_assoc, List.cons_append, skip_append hgap hc, List.head?_cons]
      rintro heq
      exact hne (Option.some.inj heq ▸ hclose)
    rw [hassoc, takeItems?, if_neg hopen]
    simp only [hfirst, hmore, Option.bind_eq_bind, Option.bind_some]
    rfl

/-- A member is taken from its spelling if its value is taken from its own. -/
theorem takeMember?_of_spells
    (htake : ∀ a part, spells a part → part.length < bound → Takes take a part)
    {member : String × α} {part : List Char} (h : SpellsMember spells member part)
    (hbound : part.length < bound) : Takes (takeMember? take bound) member part := by
  intro front rest hfront hrest
  cases h with
  | @mk key a inside before gap part hkey hbefore hgap ha =>
    simp only [List.length_append, List.length_cons] at hbound
    have hlt : inside.length < bound := by omega
    have hinside := hkey.takeInside? hlt (before ++ ':' :: (gap ++ part ++ rest))
    have hvalue := htake a part ha (by omega) gap rest hgap hrest
    have hcolon : skip (before ++ ':' :: (gap ++ part ++ rest)) = ':' :: (gap ++ part ++ rest) :=
      skip_append hbefore (by decide) _
    have hassoc : front ++ ('"' :: inside ++ '"' :: before ++ ':' :: gap ++ part) ++ rest =
        front ++ '"' :: (inside ++ '"' :: (before ++ ':' :: (gap ++ part ++ rest))) := by simp
    rw [hassoc, takeMember?, skip_append hfront (by decide)]
    simp only [hinside, hcolon, hvalue, Option.bind_eq_bind, Option.bind_some,
      String.ofList_toList]
    rfl

/-- A member starts with the quote of its key. -/
theorem opens_of_spellsMember {member : String × α} {part : List Char}
    (h : SpellsMember spells member part) : Opens part := by
  cases h with
  | mk => exact ⟨'"', _, rfl, by decide, by simp [IsClose]⟩

end

/-- A value starts with a quote, a digit or an opening bracket. -/
theorem opens_of_spells {value : Json} {part : List Char} (h : Spells value part) : Opens part := by
  cases h with
  | text => exact ⟨'"', _, rfl, by decide, by simp [IsClose]⟩
  | number n =>
    obtain ⟨c, cs, hcs, hdigit⟩ := exists_toDigits_eq_cons n
    refine ⟨c, cs, hcs, ?_, ?_⟩
    · by_contra hspace
      rw [isDigit_eq_false_of_isSpace (by simpa using hspace)] at hdigit
      cases hdigit
    · intro hclose
      rw [hclose.apart.2.1] at hdigit
      cases hdigit
  | list => exact ⟨'[', _, rfl, by decide, by simp [IsClose]⟩
  | object => exact ⟨'\x7b', _, rfl, by decide, by simp [IsClose]⟩

/-- A value is taken from each of its spellings if the fuel is enough. The induction is on the fuel:
the parts of a value are shorter than its spelling, by its marks. -/
theorem take?_of_spells {fuel : Nat} {value : Json} {part : List Char} (h : Spells value part)
    (hfuel : part.length < fuel) : Takes (take? fuel) value part := by
  induction fuel generalizing value part with
  | zero => cases hfuel
  | succ fuel ih =>
    intro front rest hfront hrest
    cases h with
    | @text value inside hinside =>
      simp only [List.length_append, List.length_cons] at hfuel
      have htake := hinside.takeInside? (by omega : inside.length < fuel) rest
      have hassoc : front ++ ('"' :: inside ++ ['"']) ++ rest =
          front ++ '"' :: (inside ++ '"' :: rest) := by simp
      rw [hassoc, take?, skip_append hfront (by decide)]
      simp only [htake, Option.map_some, String.ofList_toList]
    | number n =>
      obtain ⟨c, cs, hcs, hdigit⟩ := exists_toDigits_eq_cons n
      have htake := takeNumber?_toDigits n hrest
      obtain ⟨_, _, heq, hspace, -⟩ := opens_of_spells (.number n)
      rw [hcs] at heq htake ⊢
      cases heq
      rw [List.append_assoc, List.cons_append, take?, skip_append hfront hspace]
      split
      · next heq =>
        cases heq
        cases hdigit
      · next heq =>
        cases heq
        cases hdigit
      · next heq =>
        cases heq
        cases hdigit
      · rw [← List.cons_append, htake]
        rfl
    | @list items inner blanks hitems hblanks =>
      simp only [List.length_append, List.length_cons] at hfuel
      have htake := takeItems?_of_spells (fun _ _ => ih) (fun _ _ => opens_of_spells) (.inl rfl)
        hitems (by omega : inner.length < fuel) hblanks rest
      have hassoc : front ++ ('[' :: inner ++ blanks ++ [']']) ++ rest =
          front ++ '[' :: (inner ++ blanks ++ ']' :: rest) := by simp
      rw [hassoc, take?, skip_append hfront (by decide)]
      simp only [htake, Option.map_some]
    | @object members inner blanks hmembers hblanks =>
      simp only [List.length_append, List.length_cons] at hfuel
      have htake := takeItems?_of_spells
        (fun _ _ h hlt => takeMember?_of_spells (fun _ _ => ih) h hlt)
        (fun _ _ => opens_of_spellsMember) (.inr rfl) hmembers
        (by omega : inner.length < fuel) hblanks rest
      have hassoc : front ++ ('\x7b' :: inner ++ blanks ++ ['\x7d']) ++ rest =
          front ++ '\x7b' :: (inner ++ blanks ++ '\x7d' :: rest) := by simp
      rw [hassoc, take?, skip_append hfront (by decide)]
      simp only [htake, Option.map_some]

/-- The reader accepts the texts of the grammar, each for the one value it spells. -/
theorem read?_eq_some_iff {source : String} {value : Json} :
    read? source = some value ↔ ∃ front part back, Blanks front ∧ Spells value part ∧
      Blanks back ∧ source.toList = front ++ part ++ back := by
  constructor
  · intro h
    obtain ⟨⟨taken, rest⟩, htake, h⟩ := Option.bind_eq_some_iff.1 h
    simp only at h
    split_ifs at h with hempty
    cases h
    obtain ⟨front, part, hfront, hpart, hsource⟩ := sound_take? _ _ _ _ htake
    obtain ⟨back, hback, hrest⟩ := exists_eq_append_skip rest
    rw [List.isEmpty_iff.1 hempty, List.append_nil] at hrest
    exact ⟨front, part, back, hfront, hpart, hback, hrest ▸ hsource⟩
  · rintro ⟨front, part, back, hfront, hpart, hback, hsource⟩
    have hlt : part.length < source.length + 1 := by
      rw [← String.length_toList, hsource]
      simp only [List.length_append]
      omega
    have hstops : Stops Char.isDigit back := by
      have h := hback.stops (stops_nil Char.isDigit)
      rwa [List.append_nil] at h
    have hskip : skip back = [] := by
      have h := dropWhile_run hback (stops_nil isSpace)
      rwa [List.append_nil] at h
    rw [read?, hsource, take?_of_spells hpart hlt front back hfront hstops]
    simp [hskip]

example : (read? "[1, \x7b\"a\" : \"\\u0041\"\x7d]").isSome = true := by decide +kernel

example : (read? "[1, ]").isSome = false := by decide +kernel

/-- What is printed is read back. -/
theorem read?_pretty (value : Json) : read? value.pretty = some value := by
  refine read?_eq_some_iff.2 ⟨[], _, [], blanks_nil, spells_render 0 value, blanks_nil, ?_⟩
  rw [List.append_nil]
  rfl

/-- Two values with the same printed form are the same. -/
theorem pretty_injective : Function.Injective pretty := by
  intro value other h
  have hread := read?_pretty value
  rw [h, read?_pretty other] at hread
  exact (Option.some.inj hread).symm

end ProtocolMocks.Json
