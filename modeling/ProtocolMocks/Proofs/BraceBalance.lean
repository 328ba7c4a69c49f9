import Mathlib.Order.Nat
import ProtocolMocks.Proofs.RegionBounds

/-!
# Regions by the balance of their braces

The filter reads the tokens once and keeps a scope. The regions can also be told from the list as a
whole: a region starts at a keyword outside all earlier regions, and it stops behind the first index
at which the braces, counted from the first opening one, balance. Both ways agree on every token,
and the depth that the filter counts is the difference of the braces, which never falls to zero
inside a region.
-/

namespace ProtocolMocks

/-- The tokens from the index `start` on and in front of the index `stop`. -/
structure Region where
  start : Nat
  stop : Nat
deriving DecidableEq, Repr

/-- The token at this index lies in the region. -/
def Region.Covers (region : Region) (i : Nat) : Prop := region.start ≤ i ∧ i < region.stop

instance (region : Region) : DecidablePred region.Covers := fun i =>
  inferInstanceAs (Decidable (region.start ≤ i ∧ i < region.stop))

/-- The first index with a property. -/
def IsFirst (P : Nat → Prop) (i : Nat) : Prop := P i ∧ ∀ j < i, ¬ P j

instance (P : Nat → Prop) [DecidablePred P] : DecidablePred (IsFirst P) := fun i =>
  inferInstanceAs (Decidable (P i ∧ ∀ j < i, ¬ P j))

/-- Opening braces less closing braces, from the index `first` on and in front of the index
`stop`. -/
def braceDifference (tokens : List Token) (first stop : Nat) : Int :=
  (tokens.extract first stop).count .leftBrace - (tokens.extract first stop).count .rightBrace

/-- The first opening brace behind the index `start` stands at the index `i`. -/
def OpensAt (tokens : List Token) (start : Nat) : Nat → Prop :=
  IsFirst fun i => start < i ∧ tokens[i]? = some .leftBrace

instance (tokens : List Token) (start : Nat) : DecidablePred (OpensAt tokens start) := fun i =>
  inferInstanceAs (Decidable (IsFirst (fun i => start < i ∧ tokens[i]? = some .leftBrace) i))

/-- Counted from the first opening brace behind the index `start`, the braces up to and including
the index `i` balance. -/
def BalancesAt (tokens : List Token) (start i : Nat) : Prop :=
  i < tokens.length ∧ ∃ opening ≤ i, OpensAt tokens start opening ∧
    braceDifference tokens opening (i + 1) = 0

instance (tokens : List Token) (start : Nat) : DecidablePred (BalancesAt tokens start) := fun i =>
  inferInstanceAs (Decidable (i < tokens.length ∧ ∃ opening ≤ i, OpensAt tokens start opening ∧
    braceDifference tokens opening (i + 1) = 0))

/-- Where the region stops that starts at the index `start`: behind the first index at which its
braces balance, or with the list. -/
inductive StopsAt (tokens : List Token) (start : Nat) : Nat → Prop
  | closed {i} : IsFirst (BalancesAt tokens start) i → StopsAt tokens start (i + 1)
  | unclosed : (∀ i, ¬ BalancesAt tokens start i) → StopsAt tokens start tokens.length

/-- The regions that start at the index `first` or behind it, from left to right. -/
inductive RegionsFrom (tokens : List Token) : Nat → List Region → Prop
  | done {first} : (∀ i < tokens.length, first ≤ i → tokens[i]? ≠ some .protocolKeyword) →
      RegionsFrom tokens first []
  | next {first start stop regions} :
      IsFirst (fun i => first ≤ i ∧ tokens[i]? = some .protocolKeyword) start →
      StopsAt tokens start stop → RegionsFrom tokens stop regions →
      RegionsFrom tokens first (⟨start, stop⟩ :: regions)

/-- There are no two first indices of a kind. -/
theorem IsFirst.unique {P : Nat → Prop} {i j : Nat} (hi : IsFirst P i) (hj : IsFirst P j) :
    i = j := by
  rcases Nat.lt_trichotomy i j with hlt | heq | hgt
  · exact absurd hi.1 (hj.2 i hlt)
  · exact heq
  · exact absurd hj.1 (hi.2 j hgt)

/-- Where there is an index of a kind there is a first one, at it or in front of it. -/
theorem exists_isFirst {P : Nat → Prop} {i : Nat} (h : P i) : ∃ j ≤ i, IsFirst P j := by
  classical
  have hex : ∃ j, P j := ⟨i, h⟩
  exact ⟨Nat.find hex, Nat.find_le h, Nat.find_spec hex, fun _ => Nat.find_min hex⟩

section

variable {tokens : List Token}

/-- A region holds the keyword that starts it and lies within the list. -/
theorem StopsAt.bounds {start stop : Nat} (h : StopsAt tokens start stop)
    (hstart : start < tokens.length) : start < stop ∧ stop ≤ tokens.length := by
  cases h with
  | unclosed => exact ⟨hstart, le_rfl⟩
  | closed hfirst =>
    obtain ⟨hlength, opening, hle, hopens, -⟩ := hfirst.1
    have hlt := hopens.1.1
    omega

/-- A region stops in one place. -/
theorem StopsAt.unique {start stop stop' : Nat} (h : StopsAt tokens start stop)
    (h' : StopsAt tokens start stop') : stop = stop' := by
  cases h with
  | closed hfirst =>
    cases h' with
    | closed hfirst' => rw [hfirst.unique hfirst']
    | unclosed hnone => exact absurd hfirst.1 (hnone _)
  | unclosed hnone =>
    cases h' with
    | closed hfirst' => exact absurd hfirst'.1 (hnone _)
    | unclosed => rfl

/-- Every region stops somewhere, if only with the list. -/
theorem exists_stopsAt (tokens : List Token) (start : Nat) : ∃ stop, StopsAt tokens start stop := by
  by_cases h : ∃ i, BalancesAt tokens start i
  · obtain ⟨i, hi⟩ := h
    obtain ⟨j, -, hj⟩ := exists_isFirst hi
    exact ⟨j + 1, .closed hj⟩
  · exact ⟨tokens.length, .unclosed (not_exists.1 h)⟩

/-- There is one list of regions from an index on. -/
theorem RegionsFrom.unique {first : Nat} {regions regions' : List Region}
    (h : RegionsFrom tokens first regions) (h' : RegionsFrom tokens first regions') :
    regions = regions' := by
  induction h generalizing regions' with
  | done hnone =>
    cases h' with
    | done => rfl
    | next hfirst' =>
      obtain ⟨⟨hle, hkeyword⟩, -⟩ := hfirst'
      exact absurd hkeyword (hnone _ (List.getElem?_eq_some_iff.1 hkeyword).1 hle)
  | next hfirst hstops _ ih =>
    cases h' with
    | done hnone' =>
      obtain ⟨⟨hle, hkeyword⟩, -⟩ := hfirst
      exact absurd hkeyword (hnone' _ (List.getElem?_eq_some_iff.1 hkeyword).1 hle)
    | next hfirst' hstops' hrest' =>
      obtain rfl := hfirst.unique hfirst'
      obtain rfl := hstops.unique hstops'
      rw [ih hrest']

/-- The regions can be found from every index on. Each region takes its keyword, so less of the list
is left behind it. -/
theorem exists_regionsFrom (tokens : List Token) (first : Nat) :
    ∃ regions, RegionsFrom tokens first regions := by
  induction hleft : tokens.length - first using Nat.strong_induction_on generalizing first with
  | _ left ih =>
    by_cases h : ∃ i, first ≤ i ∧ tokens[i]? = some .protocolKeyword
    · obtain ⟨i, hi⟩ := h
      obtain ⟨start, -, hstart⟩ :=
        exists_isFirst (P := fun i => first ≤ i ∧ tokens[i]? = some .protocolKeyword) hi
      obtain ⟨stop, hstops⟩ := exists_stopsAt tokens start
      have hlength := (List.getElem?_eq_some_iff.1 hstart.1.2).1
      have hlt := (hstops.bounds hlength).1
      have hle := hstart.1.1
      obtain ⟨regions, hregions⟩ := ih (tokens.length - stop) (by omega) stop rfl
      exact ⟨_, .next hstart hstops hregions⟩
    · exact ⟨[], .done fun i _ hle hkeyword => h ⟨i, hle, hkeyword⟩⟩

/-- Every keyword lies in a region. -/
theorem RegionsFrom.exists_covers {first : Nat} {regions : List Region}
    (h : RegionsFrom tokens first regions) {i : Nat} (hi : first ≤ i)
    (hkeyword : tokens[i]? = some .protocolKeyword) : ∃ region ∈ regions, region.Covers i := by
  induction h with
  | done hnone => exact absurd hkeyword (hnone i (List.getElem?_eq_some_iff.1 hkeyword).1 hi)
  | @next first start stop regions hfirst hstops _ ih =>
    have hle : start ≤ i := Nat.le_of_not_lt fun hlt => hfirst.2 i hlt ⟨hi, hkeyword⟩
    by_cases hstop : i < stop
    · exact ⟨_, List.mem_cons_self, hle, hstop⟩
    · obtain ⟨region, hmem, hcovers⟩ := ih (Nat.le_of_not_lt hstop)
      exact ⟨region, List.mem_cons_of_mem _ hmem, hcovers⟩

/-- The scope in front of the token at an index. -/
def scopeAt (tokens : List Token) (i : Nat) : Scope := (tokens.take i).foldl Scope.next .outside

/-- Over one token the scope goes on by one step. -/
theorem scopeAt_succ {i : Nat} {t : Token} (h : tokens[i]? = some t) :
    scopeAt tokens (i + 1) = (scopeAt tokens i).next t := by
  rw [scopeAt, List.take_add_one, h, List.foldl_append]
  rfl

/-- What a token adds to the difference of the braces. -/
def Token.braceWeight : Token → Int
  | .leftBrace => 1
  | .rightBrace => -1
  | _ => 0

theorem braceDifference_self (tokens : List Token) (i : Nat) : braceDifference tokens i i = 0 := by
  simp [braceDifference]

/-- Over one token the difference of the braces changes by its weight. -/
theorem braceDifference_succ {first i : Nat} (hfirst : first ≤ i) {t : Token}
    (h : tokens[i]? = some t) :
    braceDifference tokens first (i + 1) = braceDifference tokens first i + t.braceWeight := by
  have hextract : tokens.extract first (i + 1) = tokens.extract first i ++ [t] := by
    have hlast : (tokens.drop first)[i - first]? = some t := by
      rw [List.getElem?_drop, Nat.add_sub_cancel' hfirst, h]
    rw [List.extract_eq_take_drop, List.extract_eq_take_drop, Nat.succ_sub hfirst,
      List.take_add_one, hlast]
    rfl
  rw [braceDifference, braceDifference, hextract, List.count_append, List.count_append]
  cases t <;> simp [Token.braceWeight] <;> omega

/-- In a body the depth follows the weights, and the body ends where the depth would be zero. -/
theorem Scope.next_body {depth : Nat} (hdepth : 1 ≤ depth) (t : Token) :
    (depth + t.braceWeight = 0 ∧ (Scope.body depth).next t = .outside) ∨
      ∃ after : Nat, 1 ≤ after ∧ after = depth + t.braceWeight ∧
        (Scope.body depth).next t = .body after := by
  by_cases hleft : t = .leftBrace
  · subst hleft
    exact .inr ⟨depth + 1, Nat.le_add_left 1 depth, rfl, rfl⟩
  by_cases hright : t = .rightBrace
  · subst hright
    match depth, hdepth with
    | 1, _ => exact .inl ⟨rfl, rfl⟩
    | depth + 2, _ =>
      refine .inr ⟨depth + 1, Nat.le_add_left 1 depth, ?_, rfl⟩
      simp only [Token.braceWeight]
      omega
  · have hweight : t.braceWeight = 0 := by
      unfold Token.braceWeight
      split <;> first | contradiction | rfl
    refine .inr ⟨depth, hdepth, ?_, ?_⟩
    · rw [hweight, Int.add_zero]
    · exact Scope.next_of_ne_brace Scope.noConfusion hleft hright

/-- The scope at an index behind the start of a region, before its braces balance: in the header as
long as no brace is open, then as deep in the body as the difference of the braces says. -/
inductive ScopeBehind (tokens : List Token) (start i : Nat) : Scope → Prop
  | header : (∀ j < i, start < j → tokens[j]? ≠ some .leftBrace) →
      ScopeBehind tokens start i .header
  | body {opening depth : Nat} : OpensAt tokens start opening → opening < i → 1 ≤ depth →
      depth = braceDifference tokens opening i → ScopeBehind tokens start i (.body depth)

/-- In a region the filter is not outside. -/
theorem ScopeBehind.ne_outside {start i : Nat} {scope : Scope}
    (h : ScopeBehind tokens start i scope) : scope ≠ .outside := by
  cases h <;> exact Scope.noConfusion

/-- Over one token the scope stays that of the region, or the braces balance and it is left. -/
theorem ScopeBehind.next {start i : Nat} {scope : Scope} {t : Token}
    (h : ScopeBehind tokens start i scope) (hi : start < i) (ht : tokens[i]? = some t) :
    (¬ BalancesAt tokens start i ∧ ScopeBehind tokens start (i + 1) (scope.next t)) ∨
      BalancesAt tokens start i ∧ scope.next t = .outside := by
  have hlength := (List.getElem?_eq_some_iff.1 ht).1
  cases h with
  | header hnone =>
    by_cases hleft : t = .leftBrace
    · subst hleft
      have hopens : OpensAt tokens start i := ⟨⟨hi, ht⟩, fun j hj h => hnone j hj h.1 h.2⟩
      have hone : braceDifference tokens i (i + 1) = 1 := by
        rw [braceDifference_succ le_rfl ht, braceDifference_self]
        rfl
      refine .inl ⟨?_, .body hopens (Nat.lt_succ_self i) le_rfl hone.symm⟩
      rintro ⟨-, opening, -, hopens', hzero⟩
      rw [hopens'.unique hopens, hone] at hzero
      cases hzero
    · have hnone' : ∀ j < i + 1, start < j → tokens[j]? ≠ some .leftBrace := by
        intro j hj hstart
        rcases Nat.lt_succ_iff_lt_or_eq.1 hj with hlt | rfl
        · exact hnone j hlt hstart
        · rw [ht]
          exact fun h => hleft (Option.some.inj h)
      have hnext : Scope.header.next t = .header := by
        cases t <;> first | rfl | contradiction
      rw [hnext]
      refine .inl ⟨?_, .header hnone'⟩
      rintro ⟨-, opening, hle, hopens, -⟩
      exact hnone' opening (Nat.lt_succ_of_le hle) hopens.1.1 hopens.1.2
  | @body opening depth hopens hlt hdepth hdifference =>
    have hsucc := braceDifference_succ (Nat.le_of_lt hlt) ht
    rw [← hdifference] at hsucc
    rcases Scope.next_body hdepth t with ⟨hzero, hnext⟩ | ⟨after, hafter, hweight, hnext⟩
    · exact .inr ⟨⟨hlength, opening, Nat.le_of_lt hlt, hopens, hsucc.trans hzero⟩, hnext⟩
    · rw [hnext]
      refine .inl ⟨?_, .body hopens (Nat.lt_succ_of_lt hlt) hafter (hweight.trans hsucc.symm)⟩
      rintro ⟨-, opening', -, hopens', hzero⟩
      rw [hopens'.unique hopens, hsucc] at hzero
      omega

/-- The filter enters a region at its keyword and is in it until its braces balance. -/
theorem scopeBehind_of_unbalanced {start i : Nat}
    (hkeyword : tokens[start]? = some .protocolKeyword) (houtside : scopeAt tokens start = .outside)
    (hstart : start < i) (hi : i ≤ tokens.length)
    (hopen : ∀ j < i, ¬ BalancesAt tokens start j) :
    ScopeBehind tokens start i (scopeAt tokens i) := by
  induction i, hstart using Nat.le_induction with
  | base =>
    rw [scopeAt_succ hkeyword, houtside]
    exact .header fun j hj hstart => by omega
  | succ i hstart ih =>
    have ht : tokens[i]? = some tokens[i] := List.getElem?_eq_getElem hi
    have hbehind := ih (Nat.le_of_succ_le hi) fun j hj => hopen j (Nat.lt_succ_of_lt hj)
    rw [scopeAt_succ ht]
    rcases hbehind.next hstart ht with ⟨-, hnext⟩ | ⟨hbalances, -⟩
    · exact hnext
    · exact absurd hbalances (hopen i (Nat.lt_succ_self i))

/-- A region that the filter enters at its start. -/
structure Region.Entered (tokens : List Token) (region : Region) : Prop where
  keyword : tokens[region.start]? = some .protocolKeyword
  outside : scopeAt tokens region.start = .outside
  stops : StopsAt tokens region.start region.stop

namespace Region.Entered

variable {region : Region}

/-- A region that the filter enters holds its keyword and lies within the list. -/
theorem bounds (h : region.Entered tokens) :
    region.start < region.stop ∧ region.stop ≤ tokens.length :=
  h.stops.bounds (List.getElem?_eq_some_iff.1 h.keyword).1

/-- Up to its stop, the scope in a region that the filter enters is that of the region. -/
theorem scopeBehind (h : region.Entered tokens) {i : Nat} (hstart : region.start < i)
    (hstop : i < region.stop) : ScopeBehind tokens region.start i (scopeAt tokens i) := by
  have hlength : i ≤ tokens.length := Nat.le_trans (Nat.le_of_lt hstop) h.bounds.2
  refine scopeBehind_of_unbalanced h.keyword h.outside hstart hlength fun j hj => ?_
  cases region with | mk start stop =>
  cases h.stops with
  | closed hfirst => exact hfirst.2 j (Nat.lt_of_lt_of_le hj (Nat.le_of_lt_succ hstop))
  | unclosed hnone => exact hnone j

/-- Where a region stops, the list ends in it, or its braces balance and the filter leaves it. -/
theorem stop_cases (h : region.Entered tokens) :
    (region.stop = tokens.length ∧
        ScopeBehind tokens region.start region.stop (scopeAt tokens region.stop)) ∨
      (∃ i, region.stop = i + 1 ∧ BalancesAt tokens region.start i) ∧
        scopeAt tokens region.stop = .outside := by
  have hlt := h.bounds.1
  cases region with | mk start stop =>
  cases h.stops with
  | closed hfirst =>
    rename_i i
    obtain ⟨hlength, opening, hle, hopens, -⟩ := hfirst.1
    have hstart : start < i := Nat.lt_of_lt_of_le hopens.1.1 hle
    have ht : tokens[i]? = some tokens[i] := List.getElem?_eq_getElem hlength
    have hbehind := scopeBehind_of_unbalanced h.keyword h.outside hstart (Nat.le_of_lt hlength)
      hfirst.2
    rcases hbehind.next hstart ht with ⟨hopen, -⟩ | ⟨-, houtside⟩
    · exact absurd hfirst.1 hopen
    · exact .inr ⟨⟨i, rfl, hfirst.1⟩, (scopeAt_succ ht).trans houtside⟩
  | unclosed hnone =>
    refine .inl ⟨rfl, ?_⟩
    exact scopeBehind_of_unbalanced h.keyword h.outside hlt le_rfl fun j _ => hnone j

/-- Where the filter is not outside, it is in the region whose bounds lie around the index. -/
theorem scopeBehind_of_ne_outside (h : region.Entered tokens) {i : Nat}
    (hstart : region.start < i) (hstop : i ≤ region.stop) (hscope : scopeAt tokens i ≠ .outside) :
    ScopeBehind tokens region.start i (scopeAt tokens i) ∧
      (i < tokens.length → i < region.stop) := by
  rcases Nat.lt_or_eq_of_le hstop with hlt | rfl
  · exact ⟨h.scopeBehind hstart hlt, fun _ => hlt⟩
  · rcases h.stop_cases with ⟨hend, hbehind⟩ | ⟨-, houtside⟩
    · exact ⟨hbehind, fun hlength => absurd hend (Nat.ne_of_lt hlength)⟩
    · exact absurd houtside hscope

end Region.Entered

/-- Between regions the filter stays outside. -/
theorem scopeAt_eq_outside_of_keywordless {first i : Nat}
    (houtside : scopeAt tokens first = .outside) (hi : first ≤ i) (hlength : i ≤ tokens.length)
    (hnone : ∀ j < i, first ≤ j → tokens[j]? ≠ some .protocolKeyword) :
    scopeAt tokens i = .outside := by
  induction i, hi using Nat.le_induction with
  | base => exact houtside
  | succ i hi ih =>
    have ht : tokens[i]? = some tokens[i] := List.getElem?_eq_getElem hlength
    have hbefore := ih (Nat.le_of_succ_le hlength) fun j hj => hnone j (Nat.lt_succ_of_lt hj)
    have hother : ¬ Scope.outside.covers tokens[i] = true := by
      rw [Scope.covers_outside_iff]
      intro hkeyword
      exact hnone i (Nat.lt_succ_self i) hi (by rw [ht, hkeyword])
    rw [scopeAt_succ ht, hbefore, Scope.next_of_not_covers hother]

/-- The filter enters every region at its start. -/
theorem RegionsFrom.entered {first : Nat} {regions : List Region}
    (h : RegionsFrom tokens first regions)
    (houtside : first < tokens.length → scopeAt tokens first = .outside) :
    ∀ region ∈ regions, region.Entered tokens := by
  induction h with
  | done => exact List.forall_mem_nil _
  | @next first start stop regions hfirst hstops _ ih =>
    have hlength := (List.getElem?_eq_some_iff.1 hfirst.1.2).1
    have hstart : scopeAt tokens start = .outside := by
      refine scopeAt_eq_outside_of_keywordless (houtside (Nat.lt_of_le_of_lt hfirst.1.1 hlength))
        hfirst.1.1 (Nat.le_of_lt hlength) fun j hj hle hkeyword => ?_
      exact hfirst.2 j hj ⟨hle, hkeyword⟩
    have hentered : Region.Entered tokens ⟨start, stop⟩ := ⟨hfirst.1.2, hstart, hstops⟩
    refine List.forall_mem_cons.2 ⟨hentered, ih fun hstop => ?_⟩
    rcases hentered.stop_cases with ⟨hend, -⟩ | ⟨-, hleft⟩
    · exact absurd hend (Nat.ne_of_lt hstop)
    · exact hleft

section

variable {regions : List Region} (h : RegionsFrom tokens 0 regions)

include h

/-- The filter enters each of the regions at its start. -/
theorem RegionsFrom.entered_of_mem {region : Region} (hmem : region ∈ regions) :
    region.Entered tokens :=
  h.entered (fun _ => rfl) region hmem

/-- Wherever the filter is not outside, it is in one of the regions: the last one that was entered
on the way and has not been left. -/
theorem RegionsFrom.exists_scopeBehind {i : Nat} (hi : i ≤ tokens.length)
    (hscope : scopeAt tokens i ≠ .outside) :
    ∃ region ∈ regions, region.start < i ∧ i ≤ region.stop ∧
      ScopeBehind tokens region.start i (scopeAt tokens i) ∧
      (i < tokens.length → i < region.stop) := by
  have haround : ∃ region ∈ regions, region.start < i ∧ i ≤ region.stop := by
    induction i with
    | zero => exact absurd rfl hscope
    | succ i ih =>
      have ht : tokens[i]? = some tokens[i] := List.getElem?_eq_getElem hi
      by_cases hbefore : scopeAt tokens i = .outside
      · have hcovers : Scope.outside.covers tokens[i] = true := by
          by_contra hother
          rw [scopeAt_succ ht, hbefore, Scope.next_of_not_covers hother] at hscope
          exact hscope rfl
        rw [Scope.covers_outside_iff] at hcovers
        rw [hcovers] at ht
        obtain ⟨region, hmem, hle, hlt⟩ := h.exists_covers (Nat.zero_le i) ht
        exact ⟨region, hmem, Nat.lt_succ_of_le hle, hlt⟩
      · obtain ⟨region, hmem, hstart, hstop⟩ := ih (Nat.le_of_succ_le hi) hbefore
        obtain ⟨-, hlt⟩ := (h.entered_of_mem hmem).scopeBehind_of_ne_outside hstart hstop hbefore
        exact ⟨region, hmem, Nat.lt_succ_of_lt hstart, hlt hi⟩
  obtain ⟨region, hmem, hstart, hstop⟩ := haround
  exact ⟨region, hmem, hstart, hstop,
    (h.entered_of_mem hmem).scopeBehind_of_ne_outside hstart hstop hscope⟩

/-- The filter covers the tokens of the regions and no others. -/
theorem RegionsFrom.covers_iff {i : Nat} {t : Token} (ht : tokens[i]? = some t) :
    (scopeAt tokens i).covers t = true ↔ ∃ region ∈ regions, region.Covers i := by
  have hlength := (List.getElem?_eq_some_iff.1 ht).1
  constructor
  · intro hcovers
    by_cases hscope : scopeAt tokens i = .outside
    · rw [hscope, Scope.covers_outside_iff] at hcovers
      rw [hcovers] at ht
      exact h.exists_covers (Nat.zero_le i) ht
    · obtain ⟨region, hmem, hstart, -, -, hstop⟩ :=
        h.exists_scopeBehind (Nat.le_of_lt hlength) hscope
      exact ⟨region, hmem, Nat.le_of_lt hstart, hstop hlength⟩
  · rintro ⟨region, hmem, hstart, hstop⟩
    have hentered := h.entered_of_mem hmem
    rcases Nat.lt_or_eq_of_le hstart with hlt | rfl
    · exact Scope.covers_of_ne_outside (hentered.scopeBehind hlt hstop).ne_outside t
    · obtain rfl : t = .protocolKeyword := Option.some.inj (ht.symm.trans hentered.keyword)
      rw [hentered.outside]
      rfl

/-- The depth of the filter is the difference of the braces of the region it is in. -/
theorem RegionsFrom.scopeAt_eq_body_iff {i : Nat} (hi : i ≤ tokens.length) {depth : Nat} :
    scopeAt tokens i = .body depth ↔ 1 ≤ depth ∧ ∃ region ∈ regions, i ≤ region.stop ∧
      ∃ opening < i, OpensAt tokens region.start opening ∧
        depth = braceDifference tokens opening i := by
  constructor
  · intro hscope
    obtain ⟨region, hmem, -, hstop, hbehind, -⟩ :=
      h.exists_scopeBehind hi (by rw [hscope]; exact Scope.noConfusion)
    rw [hscope] at hbehind
    cases hbehind with
    | body hopens hlt hdepth hdifference =>
      exact ⟨hdepth, region, hmem, hstop, _, hlt, hopens, hdifference⟩
  · rintro ⟨hdepth, region, hmem, hstop, opening, hlt, hopens, hdifference⟩
    have hentered := h.entered_of_mem hmem
    have hstart : region.start < i := Nat.lt_trans hopens.1.1 hlt
    have hbehind : ScopeBehind tokens region.start i (scopeAt tokens i) := by
      rcases Nat.lt_or_eq_of_le hstop with hinside | rfl
      · exact hentered.scopeBehind hstart hinside
      · rcases hentered.stop_cases with ⟨-, hbehind⟩ | ⟨⟨j, hj, -, opening', -, hopens', hzero⟩, -⟩
        · exact hbehind
        · rw [hopens'.unique hopens, ← hj, ← hdifference] at hzero
          omega
    generalize scopeAt tokens i = scope at hbehind
    cases hbehind with
    | header hnone => exact absurd hopens.1.2 (hnone opening hlt hopens.1.1)
    | body hopens' _ _ hdifference' =>
      rw [hopens'.unique hopens, ← hdifference, Int.natCast_inj] at hdifference'
      rw [hdifference']

end

end

theorem Scope.after_take (tokens : List (Located Token)) (i : Nat) :
    Scope.after .outside (tokens.take i) = scopeAt (tokens.map Located.value) i := by
  rw [Scope.after_eq_foldl, List.map_take, scopeAt]

/-- What is kept can be told index by index. -/
theorem structuralTokensFrom_eq_filterMap (inside : Nat → Bool) (scope : Scope) (offset : Nat)
    {tokens : List (Located Token)}
    (h : ∀ i token, tokens[i]? = some token →
      (scope.after (tokens.take i)).covers token.value = inside (offset + i)) :
    structuralTokensFrom scope tokens =
      ((tokens.zipIdx offset).filter (inside ·.2)).filterMap (·.1.structural?) := by
  induction tokens generalizing scope offset with
  | nil => rfl
  | cons token tokens ih =>
    have hcovers : scope.covers token.value = inside offset := h 0 token rfl
    have hrest := ih (scope.next token.value) (offset + 1) fun i later hi => by
      rw [Nat.add_assoc, Nat.add_comm 1]
      exact h (i + 1) later hi
    rw [structuralTokensFrom_cons, Scope.keep?, hcovers, List.zipIdx_cons, hrest, List.filter_cons]
    cases inside offset with
    | false => rfl
    | true => cases hkept : token.structural? <;> simp [hkept]

/-- The regions of a list can be told from the balance of its braces in exactly one way. The filter
keeps the structural tokens that lie in them, each once, in order and in its place, and in a body it
counts the difference of the braces, which is positive there. -/
theorem structuralTokens_eq_of_regions (tokens : List (Located Token)) :
    (∃! regions, RegionsFrom (tokens.map Located.value) 0 regions) ∧
    ∀ regions, RegionsFrom (tokens.map Located.value) 0 regions →
      structuralTokens tokens =
          (tokens.zipIdx.filter fun entry => ∃ region ∈ regions, region.Covers entry.2).filterMap
            (·.1.structural?) ∧
      ∀ i ≤ tokens.length, ∀ depth, Scope.after .outside (tokens.take i) = .body depth ↔
        1 ≤ depth ∧ ∃ region ∈ regions, i ≤ region.stop ∧
          ∃ opening < i, OpensAt (tokens.map Located.value) region.start opening ∧
            depth = braceDifference (tokens.map Located.value) opening i := by
  refine ⟨?_, fun regions hregions => ⟨?_, fun i hi depth => ?_⟩⟩
  · obtain ⟨regions, hregions⟩ := exists_regionsFrom (tokens.map Located.value) 0
    exact ⟨regions, hregions, fun _ hothers => hothers.unique hregions⟩
  · refine structuralTokensFrom_eq_filterMap (fun i => ∃ region ∈ regions, region.Covers i)
      .outside 0 fun i token hi => ?_
    have ht : (tokens.map Located.value)[i]? = some token.value := by
      rw [List.getElem?_map, hi]
      rfl
    rw [Scope.after_take, Nat.zero_add, Bool.eq_iff_iff, hregions.covers_iff ht, decide_eq_true_iff]
  · rw [Scope.after_take]
    exact hregions.scopeAt_eq_body_iff (by rwa [List.length_map])

/-- The tokens of `} protocol } { protocol { } } x`. -/
def strayBraces : List (Located Token) :=
  [⟨.rightBrace, 0, 1⟩, ⟨.protocolKeyword, 2, 10⟩, ⟨.rightBrace, 11, 12⟩, ⟨.leftBrace, 13, 14⟩,
    ⟨.protocolKeyword, 15, 23⟩, ⟨.leftBrace, 24, 25⟩, ⟨.rightBrace, 26, 27⟩,
    ⟨.rightBrace, 28, 29⟩, ⟨.identifier "x", 30, 31⟩]

/-- A closing brace in the header does not count, and a keyword in the body starts no region. -/
theorem strayBraces_region :
    RegionsFrom (strayBraces.map Located.value) 0 [⟨1, 8⟩] ∧
      structuralTokens strayBraces =
        [⟨.protocolKeyword, 2, 10⟩, ⟨.rightBrace, 11, 12⟩, ⟨.leftBrace, 13, 14⟩,
          ⟨.protocolKeyword, 15, 23⟩, ⟨.leftBrace, 24, 25⟩, ⟨.rightBrace, 26, 27⟩,
          ⟨.rightBrace, 28, 29⟩] ∧
      Scope.after .outside (strayBraces.take 6) = .body 2 := by
  have hregions : RegionsFrom (strayBraces.map Located.value) 0 [⟨1, 8⟩] :=
    .next (by decide) (.closed (by decide)) (.done (by decide))
  obtain ⟨hkept, hdepth⟩ := (structuralTokens_eq_of_regions strayBraces).2 _ hregions
  refine ⟨hregions, ?_, ?_⟩
  · rw [hkept]
    decide
  · exact (hdepth 6 (by decide) 2).2 (by decide)

end ProtocolMocks
