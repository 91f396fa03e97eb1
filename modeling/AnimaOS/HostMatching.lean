import AnimaOS.EgressGuard
import AnimaOS.LabelSuffix

/-!
# Host patterns and labels

The string suffix tests of the host match, read on dot-separated labels. Whole
names are compared up to ASCII case, subdomains up to the lowercasing of the
full character set.
-/

namespace HostMatching

open EgressGuard LabelSuffix TextSplit

def hostLabels (text : Text) : List Text := labels '.' text

/-- The labels of the pattern end those of the host, up to ASCII case. -/
def AsciiSuffix (host pattern : Text) : Prop :=
  (hostLabels pattern).map toAsciiLowercase <:+ (hostLabels host).map toAsciiLowercase

instance (host pattern : Text) : Decidable (AsciiSuffix host pattern) :=
  inferInstanceAs (Decidable (_ <:+ _))

/-- The same labels up to ASCII case, or fewer labels, as they stand or lowercased. -/
def LabelMatch (toLowercase : Text → Text) (host pattern : Text) : Prop :=
  (hostLabels pattern).map toAsciiLowercase = (hostLabels host).map toAsciiLowercase ∨
    StrictSuffix (hostLabels pattern) (hostLabels host) ∨
    StrictSuffix (hostLabels (toLowercase pattern)) (hostLabels (toLowercase host))

theorem toLower_dot (c : Char) : c.toLower = Char.toLower '.' ↔ c = '.' := by
  have dot : Char.toLower '.' = '.' := rfl
  rw [dot]
  by_cases upper : 'A'.toNat ≤ c.toNat ∧ c.toNat ≤ 'Z'.toNat
  · have value := Numerals.toLower_upper upper
    obtain ⟨low, -⟩ : 65 ≤ c.toNat ∧ c.toNat ≤ 90 := upper
    have point : '.'.toNat = 46 := rfl
    constructor
    · intro lowered
      rw [lowered, point] at value
      omega
    · rintro rfl
      omega
  · rw [Numerals.toLower_other upper]

theorem hostLabels_lower (text : Text) :
    hostLabels (toAsciiLowercase text) = (hostLabels text).map toAsciiLowercase :=
  labels_map toLower_dot text

theorem eqIgnoreAsciiCase_labels (host pattern : Text) :
    eqIgnoreAsciiCase host pattern = true ↔
      (hostLabels pattern).map toAsciiLowercase = (hostLabels host).map toAsciiLowercase := by
  rw [eqIgnoreAsciiCase, decide_eq_true_eq, ← hostLabels_lower, ← hostLabels_lower, hostLabels,
    hostLabels, (labels_injective '.').eq_iff, eq_comm]

theorem hostMatches_labels (toLowercase : Text → Text) (host pattern : Text) :
    hostMatches toLowercase host pattern = true ↔
      LabelMatch toLowercase (trimEnd '.' host) (trimEnd '.' (trimStart '.' pattern)) := by
  simp only [hostMatches, Bool.or_eq_true, List.isSuffixOf_iff_suffix, eqIgnoreAsciiCase_labels,
    separated_suffix_iff, or_assoc]
  rfl

/-- Where lowercasing is that of ASCII, the three tests come to one on labels. -/
theorem labelMatch_ascii {toLowercase : Text → Text} {host pattern : Text}
    (host_ascii : toLowercase host = toAsciiLowercase host)
    (pattern_ascii : toLowercase pattern = toAsciiLowercase pattern) :
    LabelMatch toLowercase host pattern ↔ AsciiSuffix host pattern := by
  rw [LabelMatch, AsciiSuffix, host_ascii, pattern_ascii, hostLabels_lower, hostLabels_lower,
    suffix_iff]
  constructor
  · rintro (same | literal | lowered)
    · exact Or.inl same
    · exact Or.inr (literal.map toAsciiLowercase)
    · exact Or.inr lowered
  · rintro (same | lowered)
    · exact Or.inl same
    · exact Or.inr (Or.inr lowered)

theorem host_match_labels (toLowercase : Text → Text) (host pattern : Text) :
    (hostMatches toLowercase host pattern = true ↔
      LabelMatch toLowercase (trimEnd '.' host) (trimEnd '.' (trimStart '.' pattern))) ∧
    (toLowercase (trimEnd '.' host) = toAsciiLowercase (trimEnd '.' host) →
      toLowercase (trimEnd '.' (trimStart '.' pattern)) =
        toAsciiLowercase (trimEnd '.' (trimStart '.' pattern)) →
      (hostMatches toLowercase host pattern = true ↔
        AsciiSuffix (trimEnd '.' host) (trimEnd '.' (trimStart '.' pattern)))) := by
  refine ⟨hostMatches_labels toLowercase host pattern, fun host_ascii pattern_ascii => ?_⟩
  rw [hostMatches_labels, labelMatch_ascii host_ascii pattern_ascii]

theorem example_com_matches :
    hostMatches toAsciiLowercase "Sub.Example.COM.".toList ".example.com.".toList = true ∧
      hostMatches toAsciiLowercase "evil-example.com".toList "example.com".toList = false := by
  have sub := (host_match_labels toAsciiLowercase "Sub.Example.COM.".toList
    ".example.com.".toList).2 rfl rfl
  have evil := (host_match_labels toAsciiLowercase "evil-example.com".toList
    "example.com".toList).2 rfl rfl
  exact ⟨sub.mpr (by decide +kernel), Bool.eq_false_iff.mpr (mt evil.mp (by decide +kernel))⟩

/-- Lowercasing with the one letter outside ASCII that becomes an ASCII letter. -/
def kelvinLowercase (text : Text) : Text :=
  text.map fun c => if c = '\u212a' then 'k' else c.toLower

/-- The Kelvin sign is not the letter it is lowercased to, and the dots before the pattern stand
for no labels. -/
theorem host_match_beyond_ascii :
    (hostMatches kelvinLowercase "a.\u212a".toList "k".toList = true ∧
      ¬AsciiSuffix (trimEnd '.' "a.\u212a".toList) (trimEnd '.' "k".toList)) ∧
    (hostMatches kelvinLowercase "example.com".toList ".example.com".toList = true ∧
      ¬AsciiSuffix (trimEnd '.' "example.com".toList) (trimEnd '.' ".example.com".toList)) := by
  decide +kernel

end HostMatching
