import IntentLoop.Auth.Blocked
import Mathlib.Data.List.Forall2
/-!
# What speaks of blocking

A text speaks of blocking just if a stretch of it is the marker, read without regard to the case of the
letters of ASCII (`speaksOfBlocking_iff`). No other character is taken for one of the marker's, however
much it looks like it.
-/

namespace IntentLoop.Auth

/-- The characters are the same, or the same letter of ASCII in another case. -/
def SameLetter (c d : Char) : Prop :=
  c = d ∨ (c.isUpper ∧ d.toNat = c.toNat + 32) ∨ (d.isUpper ∧ c.toNat = d.toNat + 32)

theorem isUpper_iff (c : Char) : c.isUpper = true ↔ 65 ≤ c.toNat ∧ c.toNat ≤ 90 := by
  show decide (c.val ≥ 'A'.val ∧ c.val ≤ 'Z'.val) = true ↔ _
  simp [UInt32.le_iff_toNat_le, ← Char.toNat_val]

theorem toNat_toLower (c : Char) :
    c.toLower.toNat = if 65 ≤ c.toNat ∧ c.toNat ≤ 90 then c.toNat + 32 else c.toNat := by
  have hupper : (c.val ≥ 'A'.val ∧ c.val ≤ 'Z'.val) ↔ 65 ≤ c.toNat ∧ c.toNat ≤ 90 := by
    rw [← isUpper_iff]
    exact (decide_eq_true_iff).symm
  unfold Char.toLower
  by_cases h : 65 ≤ c.toNat ∧ c.toNat ≤ 90
  · rw [dif_pos (hupper.mpr h), if_pos h]
    show (c.val + ('a'.val - 'A'.val)).toNat = c.val.toNat + 32
    rw [UInt32.toNat_add]
    exact Nat.mod_eq_of_lt (by have := h.2; simp only [Char.toNat] at this; simp; omega)
  · rw [dif_neg (mt hupper.mp h), if_neg h]

theorem sameLetter_iff (c d : Char) : SameLetter c d ↔ c.toLower = d.toLower := by
  rw [← Char.toNat_inj, toNat_toLower, toNat_toLower, SameLetter, ← Char.toNat_inj, isUpper_iff,
    isUpper_iff]
  split <;> split <;> omega

theorem forall₂_sameLetter_iff (word word' : List Char) :
    List.Forall₂ SameLetter word word' ↔ word.map Char.toLower = word'.map Char.toLower := by
  have hsame : SameLetter = fun c d => c.toLower = d.toLower :=
    funext fun c => funext fun d => propext (sameLetter_iff c d)
  rw [← List.forall₂_eq_eq_eq, List.forall₂_map_left_iff, List.forall₂_map_right_iff, hsame]

theorem occursIn_iff (word text : List Char) : occursIn word text = true ↔ word <:+: text := by
  induction text with
  | nil => simp [occursIn]
  | cons c text ih =>
    rw [occursIn, Bool.or_eq_true, ih, List.isPrefixOf_iff_prefix, List.infix_cons_iff]

/-- **A text speaks of blocking if the marker stands in it**, in letters of any case. -/
theorem speaksOfBlocking_iff (text : String) :
    speaksOfBlocking text = true ↔ ∃ before word after, text.toList = before ++ (word ++ after) ∧
      List.Forall₂ SameLetter word "BLOCKED_IP".toList := by
  have hmarker : blockedMarker.toList = "BLOCKED_IP".toList.map Char.toLower := by decide
  rw [speaksOfBlocking, occursIn_iff, List.infix_map_iff]
  constructor
  · rintro ⟨word, ⟨before, after, htext⟩, hword⟩
    refine ⟨before, word, after, ?_, ?_⟩
    · rw [← htext, List.append_assoc]
    · rw [forall₂_sameLetter_iff, ← hword, hmarker]
  · rintro ⟨before, word, after, htext, hword⟩
    refine ⟨word, ⟨before, after, ?_⟩, ?_⟩
    · rw [htext, List.append_assoc]
    · rw [hmarker, (forall₂_sameLetter_iff _ _).mp hword]

/-- Among the letters that look like those of the marker but are none of ASCII is the Kelvin sign. -/
example : speaksOfBlocking "403: Blocked_Ip" = true ∧
    speaksOfBlocking "403: BLOC\u212aED_IP" = false := by
  decide

end IntentLoop.Auth
