import Mathlib.Data.List.Forall2

/-!
# Cutting, choosing and splitting lists

Facts about lists that belong to no particular kind of item: looking up a key, cutting two lists in
a row, choosing items that stand for others, and splitting a list at a separator.
-/

namespace ProtocolMocks

/-- Looking up a key in a list with a first entry asks that entry first. -/
theorem lookup_cons_eq {α β : Type} [BEq α] [LawfulBEq α] [DecidableEq α] (key other : α) (b : β)
    (entries : List (α × β)) :
    ((key, b) :: entries).lookup other = if other = key then some b else entries.lookup other := by
  rw [List.lookup_cons]
  by_cases h : other = key
  · rw [if_pos h, beq_iff_eq.2 h]
  · rw [if_neg h, beq_eq_false_iff_ne.2 h]

/-- An item of two lists in a row stands in the one or in the other. -/
theorem exists_of_append_eq_append_cons {α : Type} {xs ys front back : List α} {a : α}
    (h : xs ++ ys = front ++ a :: back) :
    (∃ behind, xs = front ++ a :: behind ∧ back = behind ++ ys) ∨
      ∃ front', front = xs ++ front' ∧ ys = front' ++ a :: back := by
  rcases List.append_eq_append_iff.1 h with hlater | ⟨behind, hxs, hback⟩
  · exact .inr hlater
  · cases behind with
    | nil => exact .inr ⟨[], by simpa using hxs.symm, hback.symm⟩
    | cons b behind =>
      cases hback
      exact .inl ⟨behind, hxs, rfl⟩

/-- Among items that differ in what a function shows of them, each is alone in what it shows. -/
theorem filter_eq_singleton_of_nodup_map {α β : Type} [DecidableEq β] {f : α → β} {xs : List α}
    {x : α} (h : (xs.map f).Nodup) (hx : x ∈ xs) : xs.filter (f · = f x) = [x] := by
  induction xs with
  | nil => exact absurd hx List.not_mem_nil
  | cons first xs ih =>
    rw [List.map_cons, List.nodup_cons] at h
    obtain ⟨hfirst, hrest⟩ := h
    rcases List.mem_cons.1 hx with rfl | hx
    · have hnone : xs.filter (f · = f x) = [] := by
        refine List.filter_eq_nil_iff.2 fun other hother hshown => hfirst ?_
        rw [← of_decide_eq_true hshown]
        exact List.mem_map_of_mem hother
      rw [List.filter_cons_of_pos (by simp), hnone]
    · have hother : f first ≠ f x := by
        intro hshown
        rw [hshown] at hfirst
        exact hfirst (List.mem_map_of_mem hx)
      rw [List.filter_cons_of_neg (by simpa using hother), ih hrest hx]

section

variable {α β γ : Type} {R : α → β → Prop} {f : β → Option γ} {g : α → γ} {xs : List α}
  {ys : List β}

/-- What is chosen from parts that fit a list of items is a sublist of what the items show, if each
choice is what its item shows. -/
theorem sublist_of_forall₂ (h : List.Forall₂ R xs ys)
    (hchoice : ∀ x y, R x y → ∀ c, f y = some c → c = g x) :
    List.Sublist (ys.filterMap f) (xs.map g) := by
  induction h with
  | nil => exact List.Sublist.refl []
  | @cons x y xs ys hxy _ ih =>
    rw [List.map_cons]
    cases hy : f y with
    | none =>
      rw [List.filterMap_cons_none hy]
      exact ih.cons (g x)
    | some c =>
      rw [List.filterMap_cons_some hy, hchoice x y hxy c hy]
      exact ih.cons_cons (g x)

/-- Nothing is left out if there is a choice from every part, and only then. -/
theorem filterMap_eq_map_iff_of_forall₂ (h : List.Forall₂ R xs ys)
    (hchoice : ∀ x y, R x y → ∀ c, f y = some c → c = g x) :
    ys.filterMap f = xs.map g ↔ ∀ y ∈ ys, ∃ c, f y = some c := by
  induction h with
  | nil => simp
  | @cons x y xs ys hxy hrest ih =>
    have hsublist := sublist_of_forall₂ hrest hchoice
    rw [List.map_cons, List.forall_mem_cons]
    cases hy : f y with
    | none =>
      have hlength := hsublist.length_le
      rw [List.filterMap_cons_none hy]
      constructor
      · intro heq
        have htoo := congrArg List.length heq
        rw [List.length_cons] at htoo
        omega
      · rintro ⟨⟨c, hc⟩, _⟩
        cases hc
    | some c =>
      rw [List.filterMap_cons_some hy, hchoice x y hxy c hy, List.cons.injEq, ih]
      simp

end

/-- An item that does not separate joins the first piece. -/
theorem splitOn_cons_of_ne {α : Type} [DecidableEq α] {separator a : α} (h : a ≠ separator)
    (xs : List α) : (a :: xs).splitOn separator = (xs.splitOn separator).modifyHead (a :: ·) := by
  rw [List.splitOn_cons_eq_if_modifyHead, if_neg (by simpa using h)]

/-- A separator at the start has an empty piece in front of it. -/
theorem splitOn_cons_self {α : Type} [DecidableEq α] (separator : α) (xs : List α) :
    (separator :: xs).splitOn separator = [] :: xs.splitOn separator := by
  rw [List.splitOn_cons_eq_if_modifyHead, if_pos (by simp)]

/-- An empty first piece with others behind it ends at a separator at the start. -/
theorem exists_of_splitOn_eq_nil_cons {α : Type} [DecidableEq α] {separator : α}
    {xs next : List α} {pieces : List (List α)} (h : xs.splitOn separator = [] :: next :: pieces) :
    ∃ rest, xs = separator :: rest := by
  cases xs with
  | nil => cases h
  | cons a xs =>
    by_cases ha : a = separator
    · exact ⟨xs, by rw [ha]⟩
    · rw [splitOn_cons_of_ne ha] at h
      cases hxs : xs.splitOn separator <;> simp [hxs] at h

end ProtocolMocks
