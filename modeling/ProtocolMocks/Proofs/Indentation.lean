import Mathlib.Order.Bounds.Basic
import ProtocolMocks.Proofs.MockLayout

/-!
# Indentation over arbitrary steps

Steps may close more blocks than are open; the level then stays at zero and the surplus is
forgotten. The level is therefore not the balance of the blocks opened and closed, but how far the
balance has come up from the lowest value that it had on the way. The runs that leave every level as
they found it are exactly the properly nested ones.
-/

namespace ProtocolMocks

namespace PageStep

/-- Whether a step opens a block. -/
def opens : PageStep → Bool
  | .openBlock _ => true
  | .line _ | .blank | .closeBlock _ => false

/-- Whether a step closes a block. -/
def closes : PageStep → Bool
  | .closeBlock _ => true
  | .line _ | .blank | .openBlock _ => false

/-- Blocks opened less blocks closed. -/
def balance (steps : List PageStep) : Int := steps.countP opens - steps.countP closes

/-- The lowest balance of the first steps, however many of them are taken. -/
def lowest : List PageStep → Int
  | [] => 0
  | step :: steps => min 0 (balance [step] + lowest steps)

/-- As many blocks are closed as opened, and never more on the way. -/
structure Nested (steps : List PageStep) : Prop where
  settled : steps.countP closes = steps.countP opens
  covered : ∀ k ≤ steps.length, (steps.take k).countP closes ≤ (steps.take k).countP opens

instance : DecidablePred Nested := fun steps =>
  decidable_of_iff (steps.countP closes = steps.countP opens ∧
      ∀ k ≤ steps.length, (steps.take k).countP closes ≤ (steps.take k).countP opens)
    ⟨fun h => ⟨h.1, h.2⟩, fun h => ⟨h.settled, h.covered⟩⟩

@[simp] theorem balance_nil : balance [] = 0 := rfl

/-- The balance of steps in a row is the sum of their balances. -/
theorem balance_cons (step : PageStep) (steps : List PageStep) :
    balance (step :: steps) = balance [step] + balance steps := by
  simp only [balance, List.countP_cons, List.countP_nil]
  omega

/-- No steps at all balance out, so the lowest balance is never positive. -/
theorem lowest_nonpos (steps : List PageStep) : lowest steps ≤ 0 := by
  cases steps with
  | nil => exact Int.le_refl 0
  | cons step steps => exact Int.min_le_left _ _

/-- The lowest balance is below that of every front part. -/
theorem lowest_le_balance_take (steps : List PageStep) (k : Nat) :
    lowest steps ≤ balance (steps.take k) := by
  induction steps generalizing k with
  | nil => simp [lowest]
  | cons step steps ih =>
    cases k with
    | zero => exact lowest_nonpos _
    | succ k =>
      have hrest := ih k
      rw [List.take_succ_cons, balance_cons, lowest]
      omega

/-- The lowest balance is that of some front part. -/
theorem exists_balance_take_eq_lowest (steps : List PageStep) :
    ∃ k ≤ steps.length, balance (steps.take k) = lowest steps := by
  induction steps with
  | nil => exact ⟨0, Nat.le_refl 0, rfl⟩
  | cons step steps ih =>
    by_cases hfirst : 0 ≤ balance [step] + lowest steps
    · refine ⟨0, Nat.zero_le _, ?_⟩
      rw [List.take_zero, balance_nil, lowest]
      omega
    · obtain ⟨k, hk, hlowest⟩ := ih
      refine ⟨k + 1, Nat.succ_le_succ hk, ?_⟩
      rw [List.take_succ_cons, balance_cons, hlowest, lowest]
      omega

/-- The lowest balance after a number of steps is the least among those after so many or fewer. -/
theorem isLeast_lowest (steps : List PageStep) (n : Nat) :
    IsLeast {d | ∃ k ≤ n, balance (steps.take k) = d} (lowest (steps.take n)) := by
  have htake : ∀ k ≤ n, (steps.take n).take k = steps.take k := fun k hk => by
    rw [List.take_take, Nat.min_eq_left hk]
  constructor
  · obtain ⟨k, hk, hlowest⟩ := exists_balance_take_eq_lowest (steps.take n)
    have hkn : k ≤ n := Nat.le_trans hk (List.length_take_le n steps)
    exact ⟨k, hkn, by rw [← htake k hkn, hlowest]⟩
  · rintro d ⟨k, hk, rfl⟩
    rw [← htake k hk]
    exact lowest_le_balance_take _ k

/-- Steps are nested if they balance out and no front part closes more than it opens. -/
theorem nested_iff (steps : List PageStep) :
    Nested steps ↔ balance steps = 0 ∧ lowest steps = 0 := by
  constructor
  · rintro ⟨hsettled, hcovered⟩
    obtain ⟨k, hk, hlowest⟩ := exists_balance_take_eq_lowest steps
    have hk := hcovered k hk
    have hnonpos := lowest_nonpos steps
    simp only [balance] at hlowest ⊢
    omega
  · rintro ⟨hbalance, hlowest⟩
    refine ⟨by simp only [balance] at hbalance; omega, fun k _ => ?_⟩
    have hk := lowest_le_balance_take steps k
    simp only [balance] at hk
    omega

/-- A step moves the level by its own balance and not below zero. -/
theorem levelAfter_eq_max (level : Nat) (step : PageStep) :
    (step.levelAfter level : Int) = max 0 (level + balance [step]) := by
  cases step with
  | openBlock text =>
    have hopens : balance [.openBlock text] = 1 := rfl
    rw [levelAfter, hopens]
    omega
  | closeBlock text =>
    have hcloses : balance [.closeBlock text] = -1 := rfl
    rw [levelAfter, hcloses]
    omega
  | line text =>
    have hnone : balance [.line text] = 0 := rfl
    rw [levelAfter, hnone]
    omega
  | blank =>
    have hnone : balance [.blank] = 0 := rfl
    rw [levelAfter, hnone]
    omega

/-- From any level the steps move by their balance, and up by as much as the level falls short of
their lowest balance. A step that saturates raises the level by what the minimum takes away. -/
theorem foldl_levelAfter (level : Nat) (steps : List PageStep) :
    (steps.foldl levelAfter level : Nat) =
      level + balance steps - min 0 (level + lowest steps) := by
  induction steps generalizing level with
  | nil =>
    rw [List.foldl_nil, balance_nil, lowest]
    omega
  | cons step steps ih =>
    have hnonpos := lowest_nonpos steps
    rw [List.foldl_cons, ih, levelAfter_eq_max, balance_cons step steps, lowest]
    omega

/-- Nothing but proper nesting keeps every level: the level zero saturates at once, and one that is
high enough for all that is closed shows the balance. -/
theorem keepsLevel_iff_nested (steps : List PageStep) : KeepsLevel steps ↔ Nested steps := by
  have hnonpos := lowest_nonpos steps
  rw [nested_iff]
  constructor
  · intro h
    have hzero := foldl_levelAfter 0 steps
    have hhigh := foldl_levelAfter (lowest steps).natAbs steps
    rw [h] at hzero hhigh
    omega
  · rintro ⟨hbalance, hlowest⟩ level
    have hlevel := foldl_levelAfter level steps
    omega

/-- What a step appends, told from the levels before and after it. -/
def appended (indent : String) (before after : Nat) : PageStep → String
  | .line text | .openBlock text => (PageLine.mk before text).print indent
  | .closeBlock text => (PageLine.mk after text).print indent
  | .blank => "\n"

/-- What a step adds at a level is what belongs on the page between this level and the next one. -/
theorem added_eq_appended (indent : String) (level : Nat) (step : PageStep) :
    step.added indent level = step.appended indent level (step.levelAfter level) := by
  cases step <;> rfl

end PageStep

namespace Page

open PageStep

/-- The page after the first `n` steps. -/
def pageAfter (indent : String) (steps : List PageStep) (n : Nat) : Page :=
  (empty indent).writeAll (steps.take n)

/-- Writing steps in a row is writing one part after the other. -/
theorem writeAll_append (page : Page) (front back : List PageStep) :
    page.writeAll (front ++ back) = (page.writeAll front).writeAll back :=
  List.foldl_append

/-- The pages that come up are those after each number of steps. -/
theorem history_eq (page : Page) (steps : List PageStep) :
    page.history steps =
      (List.range steps.length).map fun n => page.writeAll (steps.take (n + 1)) := by
  induction steps generalizing page with
  | nil => rfl
  | cons step steps ih =>
    rw [history, ih, List.length_cons, List.range_succ_eq_map, List.map_cons, List.map_map]
    rfl

/-- After any number of steps the level is the balance, as seen from its lowest value so far. -/
theorem level_pageAfter (indent : String) (steps : List PageStep) (n : Nat) :
    ((pageAfter indent steps n).level : Int) =
      balance (steps.take n) - lowest (steps.take n) := by
  have hlevel : (pageAfter indent steps n).level = (steps.take n).foldl levelAfter 0 := by
    rw [pageAfter, writeAll_eq, empty]
  have hnonpos := lowest_nonpos (steps.take n)
  rw [hlevel, foldl_levelAfter]
  omega

/-- One step more is written on the page as it is so far. -/
theorem pageAfter_succ {indent : String} {steps : List PageStep} {n : Nat} {step : PageStep}
    (h : steps[n]? = some step) :
    pageAfter indent steps (n + 1) = (pageAfter indent steps n).write step := by
  rw [pageAfter, List.take_add_one, h, writeAll_append]
  rfl

/-- One step more appends what it adds between the level before and the level behind. -/
theorem text_pageAfter_succ {indent : String} {steps : List PageStep} {n : Nat} {step : PageStep}
    (h : steps[n]? = some step) :
    (pageAfter indent steps (n + 1)).text = (pageAfter indent steps n).text ++
      step.appended indent (pageAfter indent steps n).level
        (pageAfter indent steps (n + 1)).level := by
  have hindent : (pageAfter indent steps n).indent = indent := by
    rw [pageAfter, writeAll_eq, empty]
  rw [pageAfter_succ h, write_eq, added_eq_appended, hindent]

/-- A text that was written stays at the front of the page. -/
theorem exists_text_pageAfter (indent : String) (steps : List PageStep) {m n : Nat} (h : m ≤ n) :
    ∃ more, (pageAfter indent steps n).text = (pageAfter indent steps m).text ++ more := by
  have hsplit : steps.take n = steps.take m ++ (steps.drop m).take (n - m) := by
    rw [← List.take_add, Nat.add_sub_cancel' h]
  rw [pageAfter, hsplit, writeAll_append, text_writeAll]
  exact ⟨_, rfl⟩

/-- Opening blocks leads to every level. -/
theorem exists_level (indent : String) (level : Nat) :
    ∃ steps, ((empty indent).writeAll steps).level = level := by
  induction level with
  | zero => exact ⟨[], rfl⟩
  | succ level ih =>
    obtain ⟨steps, hsteps⟩ := ih
    refine ⟨steps ++ [.openBlock ""], ?_⟩
    rw [writeAll_append, ← hsteps]
    rfl

/-- Nesting shows on the page: whatever was written before, the level is given back. -/
theorem nested_iff_level_eq (indent : String) (run : List PageStep) :
    Nested run ↔ ∀ before,
      ((empty indent).writeAll (before ++ run)).level = ((empty indent).writeAll before).level := by
  have hlevel : ∀ page : Page, (page.writeAll run).level = run.foldl levelAfter page.level :=
    fun page => by rw [writeAll_eq]
  rw [← keepsLevel_iff_nested]
  constructor
  · intro h before
    rw [writeAll_append, hlevel, h]
  · intro h level
    obtain ⟨before, rfl⟩ := exists_level indent level
    rw [← hlevel, ← writeAll_append, h]

/-- The pages that the first `n` steps lead to, for each `n`, are the history of the run, and their
levels and texts follow from the steps. -/
structure FollowsBalance (indent : String) (steps : List PageStep) : Prop where
  history : (empty indent).history steps =
    (List.range steps.length).map fun n => pageAfter indent steps (n + 1)
  grows : ∀ m n, m ≤ n →
    ∃ more, (pageAfter indent steps n).text = (pageAfter indent steps m).text ++ more
  /-- The level is the balance less the lowest one so far. -/
  level : ∀ n, IsLeast {d | ∃ k ≤ n, balance (steps.take k) = d} (lowest (steps.take n)) ∧
    ((pageAfter indent steps n).level : Int) = balance (steps.take n) - lowest (steps.take n)
  appends : ∀ n step, steps[n]? = some step →
    (pageAfter indent steps (n + 1)).text = (pageAfter indent steps n).text ++
      step.appended indent (pageAfter indent steps n).level
        (pageAfter indent steps (n + 1)).level

/-- Whatever the steps, the level is how far their balance stands above its lowest value so far, and
each step appends its line at the level around it. Exactly the properly nested runs give back the
level they were given, whatever came before. -/
theorem indentation_follows_balance (indent : String) :
    (∀ steps, FollowsBalance indent steps) ∧
    ∀ run, Nested run ↔ ∀ before,
      ((empty indent).writeAll (before ++ run)).level =
        ((empty indent).writeAll before).level := by
  refine ⟨fun steps => ?_, nested_iff_level_eq indent⟩
  exact {
    history := history_eq (empty indent) steps
    grows := fun _ _ h => exists_text_pageAfter indent steps h
    level := fun n => ⟨isLeast_lowest steps n, level_pageAfter indent steps n⟩
    appends := fun _ _ h => text_pageAfter_succ h }

/-- A block with an empty line and a line inside. -/
def nestedPart : List PageStep :=
  [.openBlock "a \x7b", .blank, .line "b", .closeBlock "\x7d"]

/-- A run that closes two blocks too many, one in front of a nested part and one behind it. -/
def surplusClose : List PageStep :=
  [.closeBlock "\x7d"] ++ nestedPart ++ [.closeBlock "\x7d", .openBlock "c \x7b"]

/-- A block that is closed without being opened leaves the level at zero, so that the page is
indented one level more than the balance says. -/
theorem surplusClose_follows_balance :
    Nested nestedPart ∧
      ((empty "  ").writeAll ([.closeBlock "\x7d"] ++ nestedPart)).level =
        ((empty "  ").writeAll [.closeBlock "\x7d"]).level ∧
      (∃ more, (pageAfter "  " surplusClose 4).text =
        (pageAfter "  " surplusClose 2).text ++ more) ∧
      IsLeast {d | ∃ k ≤ 7, balance (surplusClose.take k) = d} (-2) ∧
      balance surplusClose = -1 ∧ (pageAfter "  " surplusClose 7).level = 1 ∧
      surplusClose[3]? = some (.line "b") ∧
      (pageAfter "  " surplusClose 4).text =
        (pageAfter "  " surplusClose 3).text ++ "  b\n" := by
  obtain ⟨hfollows, hnested⟩ := indentation_follows_balance "  "
  have hpart : Nested nestedPart := by decide
  have hline : surplusClose[3]? = some (.line "b") := rfl
  obtain ⟨hlowest, hlevel⟩ := (hfollows surplusClose).level 7
  refine ⟨hpart, (hnested _).1 hpart _, (hfollows surplusClose).grows 2 4 (by decide), hlowest, rfl,
    ?_, hline, (hfollows surplusClose).appends 3 _ hline⟩
  exact Int.ofNat_inj.1 hlevel

end Page

end ProtocolMocks
