import Passcode.Proofs.Signals

/-!
# Nearby — what is found in a window is found in every wider one

An indicator is near an index if it stands in the text and lies within the radius, which may reach
beyond both ends of the text or miss it (`indicatorNear_iff`).  A radius as long as the text reaches
from every index of the text to both of its ends, and then near is the same as anywhere
(`indicatorNear_of_wide`).  What announces a telephone number is looked for in a window before the
candidate; an empty window announces nothing (`looksLikePhone_zero`).

`near_by_window`: so both tests say yes more often the wider the window is.
-/

namespace Passcode

theorem Text.slice_whole (t : Text) : slice t 0 t.length = t := by
  have hslice : slice t 0 t.length = (t.take t.length).drop 0 := slice_natCast t 0 t.length
  rw [hslice, List.take_length, List.drop_zero]

open Text

/-- A radius as long as the text reaches every indicator of the text. -/
theorem indicatorNear_of_wide {lower : Text} (indicators : List Text) {index radius : Int}
    (hfirst : 0 ≤ index) (hlast : index ≤ lower.length) (hwide : lower.length ≤ radius) :
    indicatorNear lower indicators index radius = containsAny lower indicators := by
  have hstart : max (index - radius) 0 = 0 := by omega
  have hstop : min (index + radius) (lower.length : Int) = lower.length := by omega
  unfold indicatorNear
  dsimp only
  rw [hstart, hstop, slice_whole]
  split
  · -- The text is empty, and so is every word that stands in it.
    rename_i hclosed
    obtain rfl : lower = [] := List.length_eq_zero_iff.mp (by omega)
    refine (Bool.eq_false_iff.mpr fun h => ?_).symm
    obtain ⟨w, -, hne, hin⟩ := containsAny_iff.mp h
    exact hne (List.infix_nil.mp hin)
  · rfl

/-- With an empty window the digits of the candidate decide alone. -/
theorem Signal.looksLikePhone_zero {c : Candidate} (hfirst : 0 ≤ c.first) (text : Text) :
    looksLikePhone c text 0 = isLongNumber c := by
  obtain ⟨i, hi⟩ := Int.eq_ofNat_of_zero_le hfirst
  have hstart : max (c.first - 0) 0 = c.first := by omega
  have hempty : slice text c.first c.first = [] := by
    rw [hi, slice_natCast, List.drop_eq_nil_iff]
    exact List.length_take_le i text
  have hwords : phoneWords.any (fun word => occursIn word (lower [])) = false := by decide
  rw [looksLikePhone, hstart, hempty, hwords]
  rfl

/-- **Near by the window.**  Whatever the text, the indicators and the index, an indicator is near
exactly if one that is not empty stands in the text and lies wholly within the radius and the text;
it stays near within a wider radius; and within a radius as long as the text, an indicator is near
an index of the text exactly if one stands in the text at all.  A candidate that looks like a
telephone number by some window does so by every wider one, and by an empty window only for its
digits. -/
theorem near_by_window :
    (∀ (lower : Text) (indicators : List Text) (index : Int),
      (∀ radius : Int, indicatorNear lower indicators index radius = true ↔
        ∃ w ∈ indicators, w ≠ [] ∧ ∃ i : Nat, max (index - radius) 0 ≤ i ∧
          i + w.length ≤ min (index + radius) lower.length ∧ w <+: lower.drop i) ∧
      (∀ radius radius' : Int, radius ≤ radius' →
        indicatorNear lower indicators index radius = true →
        indicatorNear lower indicators index radius' = true) ∧
      (0 ≤ index → index ≤ lower.length → ∀ radius : Int, lower.length ≤ radius →
        indicatorNear lower indicators index radius = containsAny lower indicators)) ∧
    ∀ (c : Candidate) (text : Text),
      (∀ window window' : Int, window ≤ window' → Signal.looksLikePhone c text window = true →
        Signal.looksLikePhone c text window' = true) ∧
      (0 ≤ c.first → Signal.looksLikePhone c text 0 = Signal.isLongNumber c) := by
  refine ⟨fun lower indicators index => ⟨fun radius => indicatorNear_iff, ?_, ?_⟩,
    fun c text => ⟨?_, fun hfirst => Signal.looksLikePhone_zero hfirst text⟩⟩
  · intro radius radius' hradius hnear
    exact indicatorNear_mono (fun _ hw => hw) hradius hnear
  · intro hfirst hlast radius hwide
    exact indicatorNear_of_wide indicators hfirst hlast hwide
  · intro window window' hwindow hlooks
    exact Signal.looksLikePhone_mono hwindow hlooks

/-- A message with an amount of money and a telephone extension. -/
def debited : Text := "amount debited: rs 123456, call 5566".toList

/-- The extension in it. -/
def extension : Candidate :=
  { code := "5566".toList, first := 32, last := 35, numeric := true, source := .numeric }

theorem near_by_window_debited :
    indicatorNear debited ["rs".toList] 19 2 = false ∧
      (∀ radius, 3 ≤ radius → indicatorNear debited ["rs".toList] 19 radius = true) ∧
      Signal.looksLikePhone extension debited 4 = false ∧
      ∀ window, 5 ≤ window → Signal.looksLikePhone extension debited window = true := by
  obtain ⟨hnear, hphone⟩ := near_by_window
  obtain ⟨-, hwider, -⟩ := hnear debited ["rs".toList] 19
  obtain ⟨hlooks, -⟩ := hphone extension debited
  refine ⟨by decide, fun radius hradius => hwider 3 radius hradius (by decide), by decide +kernel,
    fun window hwindow => hlooks 5 window hwindow (by decide +kernel)⟩

end Passcode
