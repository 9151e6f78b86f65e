import ForwardCursor.Source.Basic
import Mathlib.Data.Seq.Basic

namespace ForwardCursor
namespace Source

/-!
# The elements of a source

A source is asked one request at a time, but what it has to give can be said at
once: it is the list of its elements before the first report that there are none.
Failed requests are left out, and elements after the report do not count.

The list may be infinite, and it need not be computable where it ends: a source
whose requests fail forever has no further element and never says so.  It is
therefore defined by what finitely many requests give.  Nothing is assumed about
the source.
-/

variable {σ ε α : Type} [Source σ ε α]

/-- The elements among some answers, up to the first report that there are none. -/
def given : List (Except ε (Option α)) → List α
  | [] => []
  | .ok (some element) :: answers => element :: given answers
  | .ok none :: _ => []
  | .error _ :: answers => given answers

/-- Further answers can only add elements at the end. -/
theorem given_prefix_append (answers more : List (Except ε (Option α))) :
    given answers <+: given (answers ++ more) := by
  induction answers with
  | nil => exact List.nil_prefix
  | cons answer answers inductionHypothesis =>
      match answer with
      | .ok (some element) =>
          exact (List.prefix_cons_inj element).mpr inductionHypothesis
      | .ok none => exact List.prefix_rfl
      | .error _ => exact inductionHypothesis

/-- More requests have the same answers first. -/
theorem pulls_prefix {fewer more : Nat} (le : fewer ≤ more) (source : σ) :
    (pulls fewer source : List (Except ε (Option α)) × σ).1 <+: (pulls more source).1 := by
  rcases Nat.exists_eq_add_of_le le with ⟨rest, rfl⟩
  rw [pulls_add]
  exact List.prefix_append _ _

/-- However many more requests are made, an element that was given stays at its index. -/
theorem given_pulls_mono {source : σ} {fewer more index : Nat} {element : α}
    (le : fewer ≤ more) (present : (given (pulls fewer source).1)[index]? = some element) :
    (given (pulls more source).1)[index]? = some element := by
  rcases pulls_prefix le source with ⟨later, extended⟩
  rcases given_prefix_append (pulls fewer source).1 later with ⟨further, longer⟩
  have inside := (List.getElem?_eq_some_iff.mp present).1
  rw [← extended, ← longer, List.getElem?_append_left inside]
  exact present

theorem given_pulls_unique {source : σ} {first second index : Nat} {left right : α}
    (leftGiven : (given (pulls first source).1)[index]? = some left)
    (rightGiven : (given (pulls second source).1)[index]? = some right) : left = right := by
  have leftLater := given_pulls_mono (Nat.le_max_left first second) leftGiven
  have rightLater := given_pulls_mono (Nat.le_max_right first second) rightGiven
  exact Option.some.inj (leftLater.symm.trans rightLater)

open Classical in
/-- The element at an index, if some number of requests gives that many. -/
noncomputable def element? (source : σ) (index : Nat) : Option α :=
  if found : ∃ element count, (given (pulls count source).1)[index]? = some element then
    some found.choose
  else none

theorem element?_eq_some_iff {source : σ} {index : Nat} {element : α} :
    element? source index = some element ↔
      ∃ count, (given (pulls count source).1)[index]? = some element := by
  unfold element?
  constructor
  · intro chosen
    split at chosen
    · next found => exact Option.some.inj chosen ▸ found.choose_spec
    · cases chosen
  · rintro ⟨count, present⟩
    have found : ∃ element count, (given (pulls count source).1)[index]? = some element :=
      ⟨element, count, present⟩
    rw [dif_pos found]
    rcases found.choose_spec with ⟨other, chosen⟩
    exact congrArg some (given_pulls_unique chosen present)

/-- The elements of a source before its first report that there are none. -/
noncomputable def elements (source : σ) : Stream'.Seq α where
  val := element? source
  property := by
    intro index absent
    apply Option.eq_none_iff_forall_ne_some.mpr
    intro element next
    rcases element?_eq_some_iff.mp next with ⟨count, present⟩
    have inside := (List.getElem?_eq_some_iff.mp present).1
    have here := element?_eq_some_iff.mpr
      ⟨count, List.getElem?_eq_getElem (Nat.lt_of_succ_lt inside)⟩
    cases absent.symm.trans here

theorem get?_elements_eq_some_iff {source : σ} {index : Nat} {element : α} :
    (elements source).get? index = some element ↔
      ∃ count, (given (pulls count source).1)[index]? = some element :=
  element?_eq_some_iff

/-- No requests give no elements, so the first answer can be split off. -/
theorem get?_elements_eq_some_iff_succ {source : σ} {index : Nat} {element : α} :
    (elements source).get? index = some element ↔
      ∃ count, (given ((pull source).1 :: (pulls count (pull source).2).1))[index]? =
        some element := by
  rw [get?_elements_eq_some_iff, ← Nat.or_exists_add_one]
  simp only [pulls_zero, given, List.getElem?_nil, reduceCtorEq, false_or, pulls_succ]

/-! ## One request -/

theorem elements_of_element {source rest : σ} {element : α}
    (answered : pull source = (.ok (some element), rest)) :
    elements source = .cons element (elements rest) := by
  apply Stream'.Seq.ext
  intro index
  apply Option.ext
  intro other
  rw [get?_elements_eq_some_iff_succ, answered]
  cases index with
  | zero => simp [given]
  | succ index =>
      simp only [given, List.getElem?_cons_succ, Stream'.Seq.get?_cons_succ]
      exact get?_elements_eq_some_iff.symm

theorem elements_of_none {source rest : σ} (answered : pull source = (.ok none, rest)) :
    elements source = .nil := by
  apply Stream'.Seq.ext
  intro index
  apply Option.ext
  intro other
  rw [get?_elements_eq_some_iff_succ, answered]
  simp [given]

/-- A failure neither adds nor removes an element. -/
theorem elements_of_error {source rest : σ} {failure : ε}
    (answered : pull source = (.error failure, rest)) :
    elements source = elements rest := by
  apply Stream'.Seq.ext
  intro index
  apply Option.ext
  intro other
  rw [get?_elements_eq_some_iff_succ, answered]
  exact get?_elements_eq_some_iff.symm

end Source
end ForwardCursor
