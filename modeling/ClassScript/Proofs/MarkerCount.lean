import ClassScript.Proofs.FragmentNesting

/-!
How often a marker occurs. Of a marker that does not overlap itself every place at which
it starts is counted, so the occurrences in a text add up: those in front of a character
that is not in the marker, and those behind it.
-/

namespace ClassScript.Text

/-- No end of the marker is how it begins, but for the empty one and the marker itself. -/
def Unbordered (marker : List Char) : Prop :=
  ∀ back ∈ marker.tails, back <+: marker → back = [] ∨ back = marker

instance (marker : List Char) : Decidable (Unbordered marker) :=
  inferInstanceAs (Decidable (∀ back ∈ marker.tails, back <+: marker → back = [] ∨ back = marker))

/-- The number of places at which the marker starts. -/
def starts (marker text : List Char) : Nat :=
  text.tails.countP (decide <| marker <+: ·)

section Starts

variable {marker text front back : List Char} {c : Char}

theorem starts_nil (hmarker : marker ≠ []) : starts marker [] = 0 := by
  simp [starts, hmarker]

theorem starts_cons (marker : List Char) (c : Char) (rest : List Char) :
    starts marker (c :: rest) = starts marker rest + if marker <+: c :: rest then 1 else 0 := by
  simp [starts, List.countP_cons]

/-- No marker starts inside another one. -/
theorem starts_suffix_append (h : Unbordered marker) (hback : back <:+ marker) (hne : back ≠ marker)
    (rest : List Char) : starts marker (back ++ rest) = starts marker rest := by
  induction back with
  | nil => rfl
  | cons c back ih =>
      have hinside : ¬ marker <+: c :: back ++ rest := by
        intro hstart
        have hborder : c :: back <+: marker :=
          List.prefix_of_prefix_length_le (List.prefix_append _ _) hstart hback.length_le
        rcases h _ ((List.mem_tails _ _).2 hback) hborder with hnil | hall
        · cases hnil
        · exact hne hall
      have hshorter : back ≠ marker := by
        rintro rfl
        exact absurd hback.length_le (by simp)
      rw [List.cons_append] at hinside ⊢
      rw [starts_cons, if_neg hinside, ih ((List.suffix_cons c back).trans hback) hshorter]
      rfl

theorem starts_marker_append (h : Unbordered marker) (hmarker : marker ≠ []) (rest : List Char) :
    starts marker (marker ++ rest) = starts marker rest + 1 := by
  obtain ⟨c, back, rfl⟩ := List.exists_cons_of_ne_nil hmarker
  have hback : back ≠ c :: back := fun heq => absurd (congrArg List.length heq) (by simp)
  have hstart : c :: back <+: c :: (back ++ rest) := List.prefix_append (c :: back) rest
  rw [List.cons_append, starts_cons, if_pos hstart,
    starts_suffix_append h (List.suffix_cons c back) hback]

/-- Behind the first marker one less starts. -/
theorem starts_of_cutAt? (h : Unbordered marker) (hmarker : marker ≠ []) {before after : List Char}
    (hcut : cutAt? marker text = some (before, after)) :
    starts marker text = starts marker after + 1 ∧ after.length < text.length := by
  induction text generalizing before with
  | nil => simp [cutAt?, hmarker] at hcut
  | cons c rest ih =>
      rw [cutAt?] at hcut
      split at hcut
      · next hstart =>
          obtain ⟨after', htext⟩ : marker <+: c :: rest := List.isPrefixOf_iff_prefix.1 hstart
          rw [← htext, List.drop_left] at hcut
          cases hcut
          have hlength := List.length_pos_iff.2 hmarker
          rw [← htext, List.length_append]
          exact ⟨starts_marker_append h hmarker after, by omega⟩
      · next hstart =>
          obtain ⟨⟨front, back⟩, hrest, hparts⟩ := Option.map_eq_some_iff.1 hcut
          cases hparts
          obtain ⟨hcount, hlength⟩ := ih hrest
          rw [starts_cons, if_neg (mt List.isPrefixOf_iff_prefix.2 hstart), List.length_cons]
          exact ⟨hcount, by omega⟩

theorem starts_eq_zero_iff (hmarker : marker ≠ []) : starts marker text = 0 ↔ ¬ marker <:+: text := by
  induction text with
  | nil => simp [starts_nil hmarker, hmarker]
  | cons c rest ih =>
      rw [starts_cons, List.infix_cons_iff, not_or, ← ih]
      by_cases hstart : marker <+: c :: rest
      · simp [hstart]
      · simp [hstart]

/-- Markers that do not overlap are all counted. -/
theorem occurrences_eq_starts (h : Unbordered marker) (hmarker : marker ≠ []) (text : List Char) :
    occurrences marker text = starts marker text := by
  have hgo : ∀ fuel (text : List Char), text.length ≤ fuel →
      occurrences.go marker fuel text = starts marker text := by
    intro fuel
    induction fuel with
    | zero =>
        intro text hlength
        rw [List.length_eq_zero_iff.1 (Nat.le_zero.1 hlength), starts_nil hmarker]
        rfl
    | succ fuel ih =>
        intro text hlength
        rw [occurrences.go]
        cases hcut : cutAt? marker text with
        | none => exact ((starts_eq_zero_iff hmarker).2 ((cutAt?_eq_none_iff hmarker).1 hcut)).symm
        | some parts =>
            obtain ⟨hcount, hshorter⟩ := starts_of_cutAt? h hmarker hcut
            rw [hcount]
            exact congrArg (· + 1) (ih parts.2 (by omega))
  exact hgo text.length text (Nat.le_refl _)

theorem prefix_append_break (hc : c ∉ marker) : marker <+: front ++ c :: back ↔ marker <+: front := by
  refine ⟨fun hstart => ?_, fun hstart => hstart.trans (List.prefix_append _ _)⟩
  rcases Nat.lt_or_ge front.length marker.length with hlong | hshort
  · have hbreak : front ++ [c] <+: front ++ c :: back := by simp
    have hinside : front ++ [c] <+: marker :=
      List.prefix_of_prefix_length_le hbreak hstart
        (by rwa [List.length_append, List.length_singleton, Nat.succ_le_iff])
    exact absurd (hinside.subset (by simp)) hc
  · exact List.prefix_of_prefix_length_le hstart (List.prefix_append _ _) hshort

theorem starts_append_break (hmarker : marker ≠ []) (hc : c ∉ marker) (front back : List Char) :
    starts marker (front ++ c :: back) = starts marker front + starts marker back := by
  have hinside : ∀ front, (marker <+: front ++ c :: back) = (marker <+: front) := fun _ =>
    propext (prefix_append_break hc)
  induction front with
  | nil =>
      have hnone : ¬ marker <+: c :: back := by
        rw [← List.nil_append (c :: back), hinside, List.prefix_nil]
        exact hmarker
      rw [List.nil_append, starts_cons, if_neg hnone, starts_nil hmarker, Nat.zero_add, Nat.add_zero]
  | cons d front ih =>
      rw [List.cons_append, starts_cons, ih, starts_cons, Nat.add_right_comm]
      simp only [← List.cons_append, hinside]

end Starts

section Occurrences

variable {marker : List Char}

/-- A character that is not in the marker keeps the occurrences before and behind it apart. -/
theorem occurrences_append_break (h : Unbordered marker) (hmarker : marker ≠ []) {c : Char}
    (hc : c ∉ marker) (front back : List Char) : occurrences marker (front ++ c :: back) =
      occurrences marker front + occurrences marker back := by
  simp only [occurrences_eq_starts h hmarker, starts_append_break hmarker hc]

/-- So those characters in front of a text change nothing. -/
theorem occurrences_replicate_append (h : Unbordered marker) (hmarker : marker ≠ []) {c : Char}
    (hc : c ∉ marker) (n : Nat) (text : List Char) :
    occurrences marker (List.replicate n c ++ text) = occurrences marker text := by
  induction n with
  | zero => rfl
  | succ n ih =>
      have hbreak := occurrences_append_break h hmarker hc [] (List.replicate n c ++ text)
      rw [ih] at hbreak
      exact hbreak.trans (Nat.zero_add _)

theorem occurrences_marker_append (h : Unbordered marker) (hmarker : marker ≠ [])
    (rest : List Char) : occurrences marker (marker ++ rest) = occurrences marker rest + 1 := by
  simp only [occurrences_eq_starts h hmarker, starts_marker_append h hmarker]

theorem occurrences_eq_zero_iff (h : Unbordered marker) (hmarker : marker ≠ []) {text : List Char} :
    occurrences marker text = 0 ↔ ¬ marker <:+: text := by
  rw [occurrences_eq_starts h hmarker, starts_eq_zero_iff hmarker]

end Occurrences

end ClassScript.Text
