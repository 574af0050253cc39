import Paranoid.TopicModel

namespace Paranoid.TopicScans

open PaddedDecimal Postgres TopicModel

variable {D : Type} {now : Int} {pollLimit afterSequence : Nat}
  {rows : List (EventRow D)} {events : List (TopicEvent D)}

/-- A sequence that fits its column fits its key suffix. -/
theorem lt_of_le_i64Max {n : Nat} (h : (n : Int) ≤ i64Max) : n < 10 ^ 20 := by
  rw [i64Max] at h
  omega

theorem parse_suffix {n : Nat} (h : (n : Int) ≤ i64Max) :
    parseTopicSequenceKeySuffix (topicSequenceKeySuffix n) = .ok n := by
  have hvalue := value_padded (lt_of_le_i64Max h)
  rw [parseTopicSequenceKeySuffix, topicSequenceKeySuffix, String.toList_ofList, hvalue, if_neg]
  · rfl
  · rintro (hlength | hdigit | hlarge)
    · exact hlength (length_padded 20 n)
    · have hall : (padded 20 n).all Char.isDigit := List.all_eq_true.2 (isDigit_padded 20 n)
      rw [hall] at hdigit
      cases hdigit
    · omega

theorem suffix_lt {a b : Nat} (ha : (a : Int) ≤ i64Max) (hb : (b : Int) ≤ i64Max) :
    topicSequenceKeySuffix a < topicSequenceKeySuffix b ↔ a < b := by
  rw [String.lt_iff_toList_lt, topicSequenceKeySuffix, topicSequenceKeySuffix, String.toList_ofList,
    String.toList_ofList, padded_lt (lt_of_le_i64Max ha) (lt_of_le_i64Max hb)]

theorem suffix_le {a b : Nat} (ha : (a : Int) ≤ i64Max) (hb : (b : Int) ≤ i64Max) :
    topicSequenceKeySuffix a ≤ topicSequenceKeySuffix b ↔ a ≤ b := by
  rw [← not_lt, suffix_lt hb ha, not_lt]

/-- Every row has a sequence of its own, which fits its column. -/
structure Numbered (rows : List (EventRow D)) : Prop where
  increasing : rows.Pairwise fun a b => a.sequence < b.sequence
  fits : ∀ row ∈ rows, (row.sequence : Int) ≤ i64Max

/-- What a scan returns: live events after the sequence, in order, and none left out
before the last one. -/
structure Scanned (now : Int) (rows : List (EventRow D))
    (afterSequence : Nat) (events : List (TopicEvent D)) : Prop where
  sound : ∀ e ∈ events, ∃ row ∈ rows, row.event = e ∧ afterSequence < row.sequence ∧ row.isLive now
  increasing : events.Pairwise fun a b => a.sequence < b.sequence
  complete : ∀ row ∈ rows, afterSequence < row.sequence → row.isLive now →
    ∀ e ∈ events, row.sequence ≤ e.sequence → row.event ∈ events

/-- The rows of a scan. -/
def scannedRows (now : Int) (pollLimit : Nat) (rows : List (EventRow D)) (afterSequence : Nat) :
    List (EventRow D) :=
  ((rows.filter fun row =>
    topicSequenceKeySuffix afterSequence < row.keySuffix && row.isLive now).insertionSort
    fun a b => a.keySuffix ≤ b.keySuffix).take pollLimit

theorem events_of_rows (h : ∀ row ∈ rows, (row.sequence : Int) ≤ i64Max) :
    scannedTopicEventsToPublicEvents rows = .ok (rows.map EventRow.event) := by
  rw [scannedTopicEventsToPublicEvents]
  induction rows with
  | nil => rfl
  | cons row rows ih =>
      rw [List.mapM_cons, EventRow.keySuffix, parse_suffix (h row List.mem_cons_self),
        ih fun other hother => h other (List.mem_cons_of_mem row hother)]
      rfl

section Rows

variable (now : Int) (hrows : Numbered rows) (hafter : (afterSequence : Int) ≤ i64Max)

include hrows hafter

theorem mem_sorted {row : EventRow D} :
    row ∈ (rows.filter fun row => topicSequenceKeySuffix afterSequence < row.keySuffix &&
      row.isLive now).insertionSort
      (fun a b => a.keySuffix ≤ b.keySuffix) ↔
        row ∈ rows ∧ afterSequence < row.sequence ∧ row.isLive now := by
  rw [(List.perm_insertionSort _ _).mem_iff, List.mem_filter, Bool.and_eq_true, decide_eq_true_eq]
  constructor
  · rintro ⟨hrow, hlt, hlive⟩
    exact ⟨hrow, (suffix_lt hafter (hrows.fits row hrow)).1 hlt, hlive⟩
  · rintro ⟨hrow, hlt, hlive⟩
    exact ⟨hrow, (suffix_lt hafter (hrows.fits row hrow)).2 hlt, hlive⟩

theorem sorted_increasing :
    ((rows.filter fun row =>
      topicSequenceKeySuffix afterSequence < row.keySuffix && row.isLive now).insertionSort
      fun a b => a.keySuffix ≤ b.keySuffix).Pairwise fun a b => a.sequence < b.sequence := by
  have hsorted := List.pairwise_insertionSort (fun a b : EventRow D => a.keySuffix ≤ b.keySuffix)
    (rows.filter fun row => topicSequenceKeySuffix afterSequence < row.keySuffix && row.isLive now)
  have hdistinct : ((rows.filter fun row =>
    topicSequenceKeySuffix afterSequence < row.keySuffix && row.isLive now).insertionSort
      fun a b => a.keySuffix ≤ b.keySuffix).Pairwise fun a b => a.sequence ≠ b.sequence := by
    refine (List.perm_insertionSort _ _).symm.pairwise ?_ fun h => h.symm
    exact (hrows.increasing.imp fun h => h.ne).filter _
  refine (hsorted.and hdistinct).imp_of_mem fun {a b} ha hb hab => ?_
  have hseq := (suffix_le (hrows.fits a ((mem_sorted now hrows hafter).1 ha).1)
    (hrows.fits b ((mem_sorted now hrows hafter).1 hb).1)).1 hab.1
  exact lt_of_le_of_ne hseq hab.2

/-- A scan of numbered rows succeeds, and returns the first of them that are live. -/
theorem fetchEventsAfter_spec (pollLimit : Nat) :
    ∃ events, fetchEventsAfter now pollLimit rows afterSequence = .ok events ∧
      Scanned now rows afterSequence events := by
  have hfits : ∀ row ∈ scannedRows now pollLimit rows afterSequence, (row.sequence : Int) ≤ i64Max := by
    intro row hrow
    exact hrows.fits row ((mem_sorted now hrows hafter).1 (List.mem_of_mem_take hrow)).1
  refine ⟨_, events_of_rows hfits, ?_, ?_, ?_⟩
  · intro e he
    obtain ⟨row, hrow, rfl⟩ := List.mem_map.1 he
    obtain ⟨hmem, hlt, hlive⟩ := (mem_sorted now hrows hafter).1 (List.mem_of_mem_take hrow)
    exact ⟨row, hmem, rfl, hlt, hlive⟩
  · rw [List.pairwise_map]
    exact (sorted_increasing now hrows hafter).take
  · intro row hrow hlt hlive e he hle
    obtain ⟨last, hlast, rfl⟩ := List.mem_map.1 he
    have hsorted := sorted_increasing now hrows hafter
    have hmem := (mem_sorted now hrows hafter).2 ⟨hrow, hlt, hlive⟩
    rw [← List.take_append_drop pollLimit ((rows.filter _).insertionSort _)] at hsorted hmem
    rcases List.mem_append.1 hmem with htaken | hdropped
    · exact List.mem_map_of_mem htaken
    · have := (List.pairwise_append.1 hsorted).2.2 last hlast row hdropped
      exact absurd hle (not_le_of_gt this)

end Rows

end Paranoid.TopicScans
