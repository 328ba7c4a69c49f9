import Mathlib.Data.List.Forall2
import ProtocolMocks.TypeName

/-!
# Keywords and the names behind them

The listing of type names goes through the tokens once, with at most one keyword waiting for its
name. It can also be told by places: a type keyword and an identifier belong together if nothing but
trivia stands between them. The listing has one entry for each such pair of places, in the order of
the places, so trivia have no part in it, and of two lists in a row it lists the one after the
other, with one more entry if their ends belong together.
-/

namespace ProtocolMocks

/-- The entry that a token makes with the one behind it. -/
def nameBetween? : Option Token → Option Token → Option TypeName
  | some (.typeKeyword kind), some (.identifier name) => some ⟨kind, name⟩
  | _, _ => none

/-- A type keyword makes an entry with an identifier behind it, and no other token makes one. -/
theorem nameBetween?_eq_some_iff {t : Token} {next : Option Token} {entry : TypeName} :
    nameBetween? (some t) next = some entry ↔
      t = .typeKeyword entry.kind ∧ next = some (.identifier entry.name) := by
  constructor
  · intro h
    unfold nameBetween? at h
    split at h
    · rename_i kind name ht
      cases h
      exact ⟨Option.some.inj ht, rfl⟩
    · cases h
  · rintro ⟨rfl, rfl⟩
    rfl

/-- A token makes an entry with its neighbour, whatever comes later. -/
theorem typeNamesAfter_cons (t : Token) (tokens : List Token) :
    typeNamesAfter none (t :: tokens) =
      (nameBetween? (some t) tokens.head?).toList ++ typeNamesAfter none tokens := by
  have hpending : ∀ kind, typeNamesAfter (some kind) tokens =
      (nameBetween? (some (.typeKeyword kind)) tokens.head?).toList ++
        typeNamesAfter none tokens := by
    intro kind
    cases tokens with
    | nil => rfl
    | cons next tokens => cases next <;> rfl
  cases t with
  | typeKeyword kind => exact hpending kind
  | _ => rfl

/-- Between two lists there is the entry that their ends make. -/
theorem typeNamesAfter_append (front back : List Token) :
    typeNamesAfter none (front ++ back) =
      typeNamesAfter none front ++
        (nameBetween? front.getLast? back.head?).toList ++ typeNamesAfter none back := by
  induction front with
  | nil => rfl
  | cons t front ih =>
    rw [List.cons_append, typeNamesAfter_cons, typeNamesAfter_cons, ih]
    cases front with
    | nil => cases t <;> rfl
    | cons next front =>
      rw [List.getLast?_cons_cons]
      simp

/-- The token at the first place is a type keyword and the one at the second place names the type,
with nothing but trivia in between. -/
structure Introduces (tokens : List Token) (i j : Nat) (entry : TypeName) : Prop where
  before : i < j
  keyword : tokens[i]? = some (.typeKeyword entry.kind)
  name : tokens[j]? = some (.identifier entry.name)
  between : ∀ k, i < k → k < j → ∃ token, tokens[k]? = some token ∧ token.isTrivia = true

namespace Introduces

variable {t : Token} {tokens : List Token} {i j : Nat} {entry : TypeName}

/-- A token in front moves a pair one place further on. -/
theorem cons_iff : Introduces (t :: tokens) (i + 1) (j + 1) entry ↔
    Introduces tokens i j entry := by
  constructor
  · rintro ⟨hbefore, hkeyword, hname, hbetween⟩
    refine ⟨by omega, by simpa using hkeyword, by simpa using hname, fun k hik hkj => ?_⟩
    simpa using hbetween (k + 1) (by omega) (by omega)
  · rintro ⟨hbefore, hkeyword, hname, hbetween⟩
    refine ⟨by omega, by simpa using hkeyword, by simpa using hname, fun k hik hkj => ?_⟩
    obtain ⟨k, rfl⟩ := Nat.exists_eq_add_one_of_ne_zero (Nat.ne_zero_of_lt hik)
    simpa using hbetween k (by omega) (by omega)

/-- The first token makes an entry with its neighbour among the meaningful tokens. -/
theorem exists_zero_iff : (∃ j, Introduces (t :: tokens) 0 j entry) ↔
    nameBetween? (some t) (tokens.filter (!·.isTrivia)).head? = some entry := by
  rw [nameBetween?_eq_some_iff, List.head?_filter, List.find?_eq_some_iff_getElem]
  constructor
  · rintro ⟨j, hbefore, hkeyword, hname, hbetween⟩
    obtain ⟨j, rfl⟩ := Nat.exists_eq_add_one_of_ne_zero (Nat.ne_zero_of_lt hbefore)
    rw [List.getElem?_cons_succ] at hname
    obtain ⟨hj, hname⟩ := List.getElem?_eq_some_iff.1 hname
    refine ⟨by simpa using hkeyword, rfl, j, hj, hname, fun k hkj => ?_⟩
    obtain ⟨token, htoken, htrivia⟩ := hbetween (k + 1) (by omega) (by omega)
    rw [List.getElem?_cons_succ, List.getElem?_eq_getElem (by omega)] at htoken
    rw [Option.some.inj htoken, htrivia]
    rfl
  · rintro ⟨rfl, -, j, hj, hname, hbetween⟩
    refine ⟨j + 1, by omega, rfl, by simp [hj, hname], fun k hk hkj => ?_⟩
    obtain ⟨k, rfl⟩ := Nat.exists_eq_add_one_of_ne_zero (Nat.ne_zero_of_lt hk)
    refine ⟨tokens[k], by simp, ?_⟩
    simpa using hbetween k (by omega)

/-- The pairs do not overlap: the next keyword stands behind the name. -/
theorem apart {i' j' : Nat} {entry' : TypeName} (h : Introduces tokens i j entry)
    (h' : Introduces tokens i' j' entry') (hlt : i < i') : j < i' := by
  apply Nat.lt_of_not_le
  intro hle
  rcases Nat.eq_or_lt_of_le hle with rfl | hinside
  · have hname := h.name
    rw [h'.keyword] at hname
    cases hname
  · obtain ⟨token, htoken, htrivia⟩ := h.between i' hlt hinside
    rw [h'.keyword] at htoken
    cases htoken
    cases htrivia

/-- A keyword has at most one name. -/
theorem name_unique {j' : Nat} {entry' : TypeName} (h : Introduces tokens i j entry)
    (h' : Introduces tokens i j' entry') : j = j' := by
  have hle : ∀ {j j' entry entry'}, Introduces tokens i j entry →
      Introduces tokens i j' entry' → j ≤ j' := by
    intro j j' entry entry' h h'
    apply Nat.le_of_not_lt
    intro hlt
    obtain ⟨token, htoken, htrivia⟩ := h.between j' h'.before hlt
    rw [h'.name] at htoken
    cases htoken
    cases htrivia
  exact Nat.le_antisymm (hle h h') (hle h' h)

end Introduces

/-- The names have one entry for each pair of places that belong together, in the order of the
places. -/
structure ListsPairs (tokens : List Token) (places : List (Nat × Nat)) (names : List TypeName) :
    Prop where
  ordered : places.Pairwise (·.2 < ·.1)
  mem_iff : ∀ i j, (i, j) ∈ places ↔ ∃ entry, Introduces tokens i j entry
  entries : List.Forall₂ (fun place entry => Introduces tokens place.1 place.2 entry) places names

/-- The same pair one place further on. -/
def nextPlace (place : Nat × Nat) : Nat × Nat := (place.1 + 1, place.2 + 1)

namespace ListsPairs

variable {tokens : List Token} {places : List (Nat × Nat)} {names : List TypeName}

theorem nil : ListsPairs [] [] [] where
  ordered := .nil
  mem_iff i j := by
    constructor
    · intro h
      cases h
    · rintro ⟨entry, h⟩
      have hkeyword := h.keyword
      cases hkeyword
  entries := .nil

/-- Behind one more token the pairs are the same, each one place further on. -/
theorem mem_map_next_iff (h : ListsPairs tokens places names) (t : Token) (i j : Nat) :
    (i, j) ∈ places.map nextPlace ↔ 0 < i ∧ ∃ entry, Introduces (t :: tokens) i j entry := by
  constructor
  · intro hmem
    obtain ⟨⟨i', j'⟩, hplace, hnext⟩ := List.mem_map.1 hmem
    cases hnext
    obtain ⟨entry, hentry⟩ := (h.mem_iff i' j').1 hplace
    exact ⟨Nat.succ_pos i', entry, Introduces.cons_iff.2 hentry⟩
  · rintro ⟨hpos, entry, hentry⟩
    obtain ⟨i', rfl⟩ := Nat.exists_eq_add_one_of_ne_zero (Nat.ne_zero_of_lt hpos)
    obtain ⟨j', rfl⟩ := Nat.exists_eq_add_one_of_ne_zero (Nat.ne_zero_of_lt hentry.before)
    have hplace := (h.mem_iff i' j').2 ⟨entry, Introduces.cons_iff.1 hentry⟩
    exact List.mem_map.2 ⟨(i', j'), hplace, rfl⟩

/-- The pairs stay in order one place further on. -/
theorem ordered_map_next (h : ListsPairs tokens places names) :
    (places.map nextPlace).Pairwise (·.2 < ·.1) := by
  rw [List.pairwise_map]
  exact h.ordered.imp fun hlt => Nat.succ_lt_succ hlt

/-- The pairs keep their entries one place further on. -/
theorem entries_map_next (h : ListsPairs tokens places names) (t : Token) :
    List.Forall₂ (fun place entry => Introduces (t :: tokens) place.1 place.2 entry)
      (places.map nextPlace) names := by
  rw [List.forall₂_map_left_iff]
  exact h.entries.imp fun _ _ hentry => Introduces.cons_iff.2 hentry

/-- A token in front adds the entry that it makes with its neighbour, if it makes one. -/
theorem exists_cons (h : ListsPairs tokens places names) (t : Token) :
    ∃ places', ListsPairs (t :: tokens) places'
      ((nameBetween? (some t) (tokens.filter (!·.isTrivia)).head?).toList ++ names) := by
  cases hfirst : nameBetween? (some t) (tokens.filter (!·.isTrivia)).head? with
  | none =>
    refine ⟨places.map nextPlace, h.ordered_map_next, fun i j => ?_, h.entries_map_next t⟩
    rw [h.mem_map_next_iff t]
    refine and_iff_right_of_imp fun ⟨entry, hentry⟩ => Nat.pos_of_ne_zero ?_
    rintro rfl
    rw [Introduces.exists_zero_iff.1 ⟨j, hentry⟩] at hfirst
    cases hfirst
  | some entry =>
    obtain ⟨j₀, hpair⟩ := Introduces.exists_zero_iff.2 hfirst
    refine ⟨(0, j₀) :: places.map nextPlace, ?_, fun i j => ?_, .cons hpair (h.entries_map_next t)⟩
    · refine List.pairwise_cons.2 ⟨fun ⟨i, j⟩ hlater => ?_, h.ordered_map_next⟩
      obtain ⟨hpos, other, hother⟩ := (h.mem_map_next_iff t i j).1 hlater
      exact hpair.apart hother hpos
    · rw [List.mem_cons, h.mem_map_next_iff t, Prod.mk.injEq]
      constructor
      · rintro (⟨rfl, rfl⟩ | ⟨-, hother⟩)
        · exact ⟨entry, hpair⟩
        · exact hother
      · rintro ⟨other, hother⟩
        rcases Nat.eq_zero_or_pos i with rfl | hpos
        · exact .inl ⟨rfl, hother.name_unique hpair⟩
        · exact .inr ⟨hpos, other, hother⟩

end ListsPairs

/-- The listing has one entry for each pair, in order. The induction is on the tokens, and trivia in
front of the others are no keywords and make no entry. -/
theorem exists_listsPairs (tokens : List Token) :
    ∃ places, ListsPairs tokens places (typeNamesAfter none (tokens.filter (!·.isTrivia))) := by
  induction tokens with
  | nil => exact ⟨[], .nil⟩
  | cons t tokens ih =>
    obtain ⟨places, hplaces⟩ := ih
    have hcons : typeNamesAfter none ((t :: tokens).filter (!·.isTrivia)) =
        (nameBetween? (some t) (tokens.filter (!·.isTrivia)).head?).toList ++
          typeNamesAfter none (tokens.filter (!·.isTrivia)) := by
      by_cases htrivia : t.isTrivia = true
      · have hnone : nameBetween? (some t) (tokens.filter (!·.isTrivia)).head? = none := by
          cases t <;> first | rfl | cases htrivia
        rw [List.filter_cons_of_neg (by simp [htrivia]), hnone]
        rfl
      · rw [List.filter_cons_of_pos (by simp [htrivia]), typeNamesAfter_cons]
    rw [hcons]
    exact hplaces.exists_cons t

/-- The tokens that are not trivia, without their spans. -/
def meaningfulTokens (tokens : List (Located Token)) : List Token :=
  (tokens.map Located.value).filter (!·.isTrivia)

/-- Of two lists in a row the meaningful tokens are those of each. -/
theorem meaningfulTokens_append (front back : List (Located Token)) :
    meaningfulTokens (front ++ back) = meaningfulTokens front ++ meaningfulTokens back := by
  simp [meaningfulTokens]

theorem meaningfulTokens_eq_nil {trivia : List (Located Token)}
    (h : ∀ token ∈ trivia, token.value.isTrivia = true) : meaningfulTokens trivia = [] := by
  simpa [meaningfulTokens] using h

/-- The listing has one entry for each keyword and identifier with nothing but trivia in between, in
order. Trivia put in or left out anywhere change nothing. Of two lists in a row, the names of the
one stand before those of the other, with one more in between if the last meaningful token of the
first list is a type keyword and the first one of the second list an identifier. -/
theorem names_of_adjacent_tokens :
    (∀ tokens, ∃ places, ListsPairs (tokens.map Located.value) places (typeNames tokens)) ∧
    (∀ front trivia back, (∀ token ∈ trivia, token.value.isTrivia = true) →
      typeNames (front ++ trivia ++ back) = typeNames (front ++ back)) ∧
    ∀ front back, typeNames (front ++ back) =
      typeNames front ++
        (nameBetween? (meaningfulTokens front).getLast? (meaningfulTokens back).head?).toList ++
        typeNames back := by
  refine ⟨fun tokens => exists_listsPairs _, fun front trivia back htrivia => ?_,
    fun front back => ?_⟩
  · rw [typeNames, ← meaningfulTokens, meaningfulTokens_append, meaningfulTokens_append,
      meaningfulTokens_eq_nil htrivia, List.append_nil, ← meaningfulTokens_append]
    rfl
  · rw [typeNames, ← meaningfulTokens, meaningfulTokens_append, typeNamesAfter_append]
    rfl

/-- The tokens of `class struct /**/`. -/
def danglingKeyword : List (Located Token) :=
  [⟨.typeKeyword .classType, 0, 5⟩, ⟨.whitespace, 5, 6⟩, ⟨.typeKeyword .structType, 6, 12⟩,
    ⟨.whitespace, 12, 13⟩, ⟨.blockComment, 13, 17⟩]

/-- The tokens of ` A: class, enum B`. -/
def nameInFront : List (Located Token) :=
  [⟨.whitespace, 17, 18⟩, ⟨.identifier "A", 18, 19⟩, ⟨.colon, 19, 20⟩, ⟨.whitespace, 20, 21⟩,
    ⟨.typeKeyword .classType, 21, 26⟩, ⟨.comma, 26, 27⟩, ⟨.whitespace, 27, 28⟩,
    ⟨.typeKeyword .enumType, 28, 32⟩, ⟨.whitespace, 32, 33⟩, ⟨.identifier "B", 33, 34⟩]

/-- Neither list has a name for `struct`, both together have one, with the comment or without it. -/
theorem danglingKeyword_finds_name :
    typeNames danglingKeyword = [] ∧ typeNames nameInFront = [⟨.enumType, "B"⟩] ∧
      typeNames (danglingKeyword ++ nameInFront) = [⟨.structType, "A"⟩, ⟨.enumType, "B"⟩] ∧
      (∀ token ∈ danglingKeyword.drop 3, token.value.isTrivia = true) ∧
      typeNames (danglingKeyword.take 3 ++ nameInFront) =
        [⟨.structType, "A"⟩, ⟨.enumType, "B"⟩] ∧
      ∃ places, ListsPairs ((danglingKeyword ++ nameInFront).map Located.value) places
        [⟨.structType, "A"⟩, ⟨.enumType, "B"⟩] := by
  obtain ⟨hpairs, hinsert, happend⟩ := names_of_adjacent_tokens
  have hboth : typeNames (danglingKeyword ++ nameInFront) =
      [⟨.structType, "A"⟩, ⟨.enumType, "B"⟩] := happend danglingKeyword nameInFront
  have htrivia : ∀ token ∈ danglingKeyword.drop 3, token.value.isTrivia = true := by decide
  have hwithout := hinsert (danglingKeyword.take 3) _ nameInFront htrivia
  have hplaces := hpairs (danglingKeyword ++ nameInFront)
  rw [hboth] at hplaces
  exact ⟨rfl, rfl, hboth, htrivia, hwithout.symm.trans hboth, hplaces⟩

end ProtocolMocks
