import LogForwarding.Proofs.Yaml.Folding
import Mathlib.Data.List.Induction

/-!
Which texts survive folding.
-/

namespace LogForwarding.Yaml

/-- Folding keeps these characters: none is the next-line character, no separator stands beside a
space, and no line begins like a document marker. -/
def isKept : List Char → Bool
  | [] => true
  | c :: rest =>
      c ≠ '\u0085' ∧
        (isSeparator c → rest.head? ≠ some ' ' ∧ ¬ beginsMarker rest) ∧
        (c = ' ' → ¬ rest.head?.any isSeparator) ∧
        isKept rest

theorem isKept_cons {c : Char} {rest : List Char} :
    isKept (c :: rest) ↔
      c ≠ '\u0085' ∧
        (isSeparator c → rest.head? ≠ some ' ' ∧ ¬ beginsMarker rest) ∧
        (c = ' ' → ∀ next ∈ rest.head?, ¬ isSeparator next) ∧
        isKept rest := by
  have hnext : (¬ rest.head?.any isSeparator) ↔ ∀ next ∈ rest.head?, ¬ isSeparator next := by
    cases rest <;> simp
  rw [isKept, decide_eq_true_iff, hnext]

theorem beginsMarker_white {c : Char} (hc : isWhite c) (rest : List Char) :
    beginsMarker (c :: rest) = false := by
  rw [Bool.eq_false_iff]
  intro hmarker
  obtain ⟨mark, next, more, hmark, -, heq⟩ := beginsMarker_iff.mp hmarker
  obtain ⟨rfl, -⟩ := List.cons.inj heq
  rcases hmark with rfl | rfl <;> revert hc <;> decide

/-- White space is kept if it is all spaces or all separators. -/
theorem isKept_white_iff {white : List Char} (hwhite : ∀ c ∈ white, isWhite c) :
    isKept white ↔
      (∀ c ∈ white, c = ' ') ∨ ∀ c ∈ white, isSeparator c ∧ c ≠ '\u0085' := by
  induction white with
  | nil => simp [isKept]
  | cons c white ih =>
      obtain ⟨hc, hothers⟩ := List.forall_mem_cons.mp hwhite
      rw [isKept_cons, ih hothers]
      cases white with
      | nil =>
          rcases isWhite_iff.mp hc with rfl | rfl | rfl | rfl <;> simp [isSeparator, beginsMarker]
      | cons d white =>
          have hd := hothers d List.mem_cons_self
          have hmarker := beginsMarker_white hd white
          simp only [List.head?_cons, Option.mem_some_iff, forall_eq', List.forall_mem_cons, hmarker,
            Bool.false_eq_true, not_false_eq_true, and_true, Option.some.injEq, Ne]
          rcases isWhite_iff.mp hc with rfl | rfl | rfl | rfl <;>
            rcases isWhite_iff.mp hd with rfl | rfl | rfl | rfl <;>
              simp [isSeparator]

/-! ### What a gap stands for -/

/-- The gap that some white space makes. -/
def gapOf (white : List Char) : Gap :=
  white.foldl (fun gap c => gap.push (readAs c)) Gap.empty

theorem gapOf_append_singleton (white : List Char) (c : Char) :
    gapOf (white ++ [c]) = (gapOf white).push (readAs c) := by
  simp [gapOf]

theorem isBreak_readAs {c : Char} (hc : isWhite c) : isBreak (readAs c) = isSeparator c := by
  rcases isWhite_iff.mp hc with rfl | rfl | rfl | rfl <;> decide

/-- Of white space with a line break only the breaks are left. -/
theorem breaks_gapOf {white : List Char} (hwhite : ∀ c ∈ white, isWhite c) :
    (gapOf white).breaks.reverse = (white.filter isSeparator).map fun c => some (readAs c) := by
  induction white using List.reverseRecOn with
  | nil => rfl
  | append_singleton white c ih =>
      have hothers := ih fun d hmem => hwhite d (List.mem_append_left _ hmem)
      have hc := hwhite c (List.mem_append_right _ List.mem_cons_self)
      rw [gapOf_append_singleton, Gap.push, isBreak_readAs hc, List.filter_append, List.map_append,
        ← hothers]
      by_cases hseparator : isSeparator c
      · simp [hseparator]
      · by_cases hnone : (gapOf white).breaks = [] <;> simp [hseparator, hnone]

/-- White space without a line break stays as it is. -/
theorem gapOf_spaces {white : List Char} (hspaces : ∀ c ∈ white, c = ' ') :
    gapOf white = ⟨white.reverse, []⟩ := by
  induction white using List.reverseRecOn with
  | nil => rfl
  | append_singleton white c ih =>
      have hc := hspaces c (List.mem_append_right _ List.mem_cons_self)
      rw [gapOf_append_singleton, ih fun d hmem => hspaces d (List.mem_append_left _ hmem), hc]
      simp [Gap.push, readAs, isBreak]

/-- What is left of line breaks: a space for a single line feed, else the breaks without a line feed
in front. -/
def foldedBreaks : List Char → List Char
  | ['\n'] => [' ']
  | '\n' :: more => more
  | breaks => breaks

theorem text_gapOf {white : List Char} (hwhite : ∀ c ∈ white, isWhite c)
    (hbreak : ∃ c ∈ white, isSeparator c) :
    (gapOf white).text = foldedBreaks ((white.filter isSeparator).map readAs) := by
  have hbreaks : (gapOf white).breaks.reverse =
      ((white.filter isSeparator).map readAs).map some := by
    rw [breaks_gapOf hwhite, List.map_map]
    rfl
  have hsome : (white.filter isSeparator).map readAs ≠ [] := by
    obtain ⟨c, hmem, hc⟩ := hbreak
    exact List.ne_nil_of_mem (List.mem_map_of_mem (List.mem_filter.mpr ⟨hmem, hc⟩))
  rw [Gap.text, Gap.foldedReversed, hbreaks]
  generalize (white.filter isSeparator).map readAs = breaks at hsome ⊢
  cases breaks with
  | nil => exact absurd rfl hsome
  | cons c more =>
      by_cases hc : c = '\n'
      · subst hc
        cases more <;> simp [foldedBreaks]
      · rw [foldedBreaks.eq_3 _ (by simp [hc]) (by simp [hc])]
        simp [hc]

theorem spaces_of_no_break {white : List Char} (hwhite : ∀ c ∈ white, isWhite c)
    (hbreak : ¬ ∃ c ∈ white, isSeparator c) : ∀ c ∈ white, c = ' ' := by
  intro c hmem
  rcases isWhite_iff.mp (hwhite c hmem) with hc | hc
  · exact hc
  · exact absurd ⟨c, hmem, isSeparator_iff.mpr hc⟩ hbreak

/-- The next-line character is read as another line break, so it is not among what is left. -/
theorem nextLine_notMem_foldedBreaks (breaks : List Char) :
    '\u0085' ∉ foldedBreaks (breaks.map readAs) := by
  have hread : '\u0085' ∉ breaks.map readAs := by
    rw [List.mem_map]
    rintro ⟨d, -, hd⟩
    rw [readAs] at hd
    split at hd
    · exact absurd hd (by decide)
    · contradiction
  unfold foldedBreaks
  split <;> simp_all

/-- Other line breaks are left as they are. -/
theorem foldedBreaks_separators {white : List Char} (hnext : '\u0085' ∉ white) :
    foldedBreaks ((white.filter isSeparator).map readAs) = white.filter isSeparator := by
  have hread : (white.filter isSeparator).map readAs = white.filter isSeparator := by
    refine (List.map_congr_left fun d hd => ?_).trans (List.map_id _)
    refine if_neg ?_
    rintro rfl
    exact hnext (List.mem_filter.mp hd).1
  have hfeed : '\n' ∉ white.filter isSeparator := by
    intro hmem
    exact absurd (List.mem_filter.mp hmem).2 (by decide)
  rw [hread]
  unfold foldedBreaks
  split <;> simp_all

/-- White space stands for itself exactly if it is kept. -/
theorem text_gapOf_iff {white : List Char} (hwhite : ∀ c ∈ white, isWhite c) :
    (gapOf white).text = white ↔ isKept white := by
  rw [isKept_white_iff hwhite]
  by_cases hbreak : ∃ c ∈ white, isSeparator c
  · rw [text_gapOf hwhite hbreak]
    obtain ⟨c, hmem, hc⟩ := hbreak
    have hspaces : ¬ ∀ c ∈ white, c = ' ' := by
      intro hspaces
      rw [hspaces c hmem] at hc
      exact absurd hc (by decide)
    by_cases hnext : '\u0085' ∈ white
    · constructor
      · intro heq
        exact absurd (heq ▸ hnext) (nextLine_notMem_foldedBreaks _)
      · rintro (hall | hall)
        · exact absurd hall hspaces
        · exact absurd rfl (hall _ hnext).2
    · rw [foldedBreaks_separators hnext, List.filter_eq_self]
      constructor
      · intro hall
        refine Or.inr fun d hd => ⟨hall d hd, ?_⟩
        rintro rfl
        exact hnext hd
      · rintro (hall | hall)
        · exact absurd hall hspaces
        · exact fun d hd => (hall d hd).1
  · have hspaces := spaces_of_no_break hwhite hbreak
    rw [gapOf_spaces hspaces]
    simp only [Gap.text, Gap.foldedReversed, List.reverse_nil, List.reverse_reverse, true_iff]
    exact Or.inl hspaces

theorem length_text_gapOf_le {white : List Char} (hwhite : ∀ c ∈ white, isWhite c) :
    (gapOf white).text.length ≤ white.length := by
  by_cases hbreak : ∃ c ∈ white, isSeparator c
  · have hfolded (breaks : List Char) : (foldedBreaks breaks).length ≤ breaks.length := by
      unfold foldedBreaks
      split <;> simp
    rw [text_gapOf hwhite hbreak]
    refine Nat.le_trans (hfolded _) ?_
    rw [List.length_map]
    exact List.length_filter_le _ _
  · rw [gapOf_spaces (spaces_of_no_break hwhite hbreak)]
    simp [Gap.text, Gap.foldedReversed]

/-! ### What folding keeps -/

/-- White space and what follows it are kept each for itself, unless a marker begins a line. -/
theorem isKept_append_iff {white : List Char} (hwhite : ∀ c ∈ white, isWhite c) {c : Char}
    (hc : isWhite c = false) (rest : List Char) :
    isKept (white ++ c :: rest) ↔
      isKept white ∧
        ¬ ((∃ last ∈ white.getLast?, isSeparator last) ∧ beginsMarker (c :: rest)) ∧
        isKept rest := by
  have hspace : c ≠ ' ' := by
    rintro rfl
    exact absurd hc (by decide)
  have hseparator : isSeparator c = false := by
    rw [Bool.eq_false_iff]
    intro hbreak
    rw [isWhite_iff.mpr (Or.inr (isSeparator_iff.mp hbreak))] at hc
    cases hc
  have hnext : c ≠ '\u0085' := by
    rintro rfl
    exact absurd hc (by decide)
  induction white with
  | nil => simp [isKept, hspace, hseparator, hnext]
  | cons d white ih =>
      obtain ⟨hd, hothers⟩ := List.forall_mem_cons.mp hwhite
      rw [List.cons_append, isKept_cons, isKept_cons]
      simp only [ih hothers]
      cases white with
      | nil =>
          have hempty : beginsMarker [] = false := rfl
          simp [hspace, hseparator, isKept, hempty]
      | cons e white =>
          have hmarker := beginsMarker_white (hothers e List.mem_cons_self)
          simp [hmarker, and_assoc, List.getLast?_cons]

theorem fold_white {fresh : Bool} {white : List Char} {c : Char} (hc : isWhite c)
    (text : List Char) :
    fold fresh (gapOf white) (c :: text) = fold (isSeparator c) (gapOf (white ++ [c])) text := by
  rw [fold, if_pos hc, gapOf_append_singleton]

theorem white_append {white : List Char} (hwhite : ∀ c ∈ white, isWhite c) {c : Char}
    (hc : isWhite c) : ∀ d ∈ white ++ [c], isWhite d := by
  intro d hmem
  rcases List.mem_append.mp hmem with hmem | hmem
  · exact hwhite d hmem
  · exact List.mem_singleton.mp hmem ▸ hc

/-- Folding does not add characters. -/
theorem length_fold_le {fresh : Bool} {white text read : List Char}
    (hwhite : ∀ c ∈ white, isWhite c) (hread : fold fresh (gapOf white) text = some read) :
    read.length ≤ white.length + text.length := by
  induction text generalizing fresh white read with
  | nil =>
      cases hread
      simpa using length_text_gapOf_le hwhite
  | cons c text ih =>
      by_cases hc : isWhite c
      · rw [fold_white hc] at hread
        have hle := ih (white_append hwhite hc) hread
        simp only [List.length_append, List.length_cons, List.length_nil] at hle ⊢
        omega
      · rw [fold, if_neg hc] at hread
        split at hread
        · cases hread
        · obtain ⟨more, hmore, rfl⟩ := Option.map_eq_some_iff.mp hread
          have hrest := @ih _ [] _ (by simp) hmore
          have hgap := length_text_gapOf_le hwhite
          simp only [List.length_append, List.length_cons, List.length_nil] at hrest ⊢
          omega

/-- Folding keeps a text behind some white space exactly if it keeps each part of it. -/
theorem fold_eq_iff {fresh : Bool} {white : List Char} (hwhite : ∀ c ∈ white, isWhite c)
    (hfresh : fresh ↔ ∃ last ∈ white.getLast?, isSeparator last) (text : List Char) :
    fold fresh (gapOf white) text = some (white ++ text) ↔ isKept (white ++ text) := by
  induction text generalizing fresh white with
  | nil => rw [fold, List.append_nil, ← text_gapOf_iff hwhite, Option.some_inj]
  | cons c text ih =>
      by_cases hc : isWhite c
      · have hlast : isSeparator c ↔ ∃ last ∈ (white ++ [c]).getLast?, isSeparator last := by simp
        have hrest := ih (white_append hwhite hc) hlast
        rw [List.append_assoc, List.singleton_append] at hrest
        rw [fold_white hc]
        exact hrest
      · have hsolid : isWhite c = false := by simpa using hc
        have hempty : false ↔ ∃ last ∈ ([] : List Char).getLast?, isSeparator last := by simp
        have hrest : fold false Gap.empty text = some text ↔ isKept text :=
          ih (List.forall_mem_nil _) hempty
        rw [isKept_append_iff hwhite hsolid, fold, if_neg hc, ← text_gapOf_iff hwhite, ← hrest,
          ← hfresh]
        by_cases hrefused : fresh ∧ beginsMarker (c :: text)
        · simp [hrefused]
        · rw [if_neg hrefused]
          constructor
          · intro hsome
            obtain ⟨more, hmore, heq⟩ := Option.map_eq_some_iff.mp hsome
            -- neither part grows, so neither part shrinks
            have hgap := length_text_gapOf_le hwhite
            have hlength : more.length ≤ text.length := by
              simpa using length_fold_le (List.forall_mem_nil _) hmore
            have hboth := congrArg List.length heq
            simp only [List.length_append, List.length_cons] at hboth
            obtain ⟨htext, hcons⟩ := List.append_inj heq (by omega)
            obtain ⟨-, rfl⟩ := List.cons.inj hcons
            exact ⟨htext, hrefused, hmore⟩
          · rintro ⟨htext, -, hmore⟩
            rw [hmore, Option.map_some, htext]

/-- A text is read as it was written exactly if folding keeps it. -/
theorem folded?_eq_iff (text : String) : folded? text = some text ↔ isKept text.toList := by
  have hempty : false ↔ ∃ last ∈ ([] : List Char).getLast?, isSeparator last := by simp
  have hfold : fold false Gap.empty text.toList = some text.toList ↔ isKept text.toList :=
    fold_eq_iff (List.forall_mem_nil _) hempty text.toList
  rw [← hfold, folded?]
  constructor
  · intro hread
    obtain ⟨read, hread, rfl⟩ := Option.map_eq_some_iff.mp hread
    rwa [String.toList_ofList] at hread ⊢
  · intro hread
    rw [hread, Option.map_some, String.ofList_toList]

end LogForwarding.Yaml
