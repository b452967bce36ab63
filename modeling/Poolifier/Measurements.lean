import Poolifier.CircularArrays
import Mathlib.Data.List.MinMax
/-!
# Measurement statistics over a sequence of values

What the statistics of a measurement are after any sequence of values, each
recorded under the requirements of the time. Requirements come and go, so a
value may be counted and not kept in the history, and the average and the
median are there only where the last value kept was recorded with them.
-/

namespace Poolifier

open CircularArrays JsArrayLib

/-- A call of `updateMeasurementStatistics`. -/
structure Record where
  requirements : MeasurementStatisticsRequirements
  value : ℚ

/-- Statistics that are empty at first, after the calls. -/
def recordAll (records : List Record) : MeasurementStatistics :=
  records.foldl (fun m r => updateMeasurementStatistics m r.requirements r.value) .init

/-! ## What the calls record -/

/-- The values recorded while the aggregate was required. -/
def aggregated (records : List Record) : List ℚ := (records.filter (·.requirements.aggregate)).map (·.value)

/-- The values recorded while the aggregate was required, and the average or the median. -/
def historic (records : List Record) : List ℚ :=
  (records.filter fun r =>
    r.requirements.aggregate && (r.requirements.average || r.requirements.median)).map (·.value)

def IsMean (x : ℚ) (l : List ℚ) : Prop := l ≠ [] ∧ x = l.sum / l.length

/-- The mean of the two middle elements of a list in order, which are one if its length is odd. -/
def IsMedian (x : ℚ) (l : List ℚ) : Prop :=
  ∃ sorted : List ℚ, sorted.Perm l ∧ sorted.Pairwise (· ≤ ·) ∧
    ∃ a b, sorted[(l.length - 1) / 2]? = some a ∧ sorted[l.length / 2]? = some b ∧ x = (a + b) / 2

/-- What the statistics are after the calls. -/
structure Records (records : List Record) (m : MeasurementStatistics) : Prop where
  aggregate : m.aggregate = if aggregated records = [] then none else some (aggregated records).sum
  minimum : m.minimum = (aggregated records).min?
  maximum : m.maximum = (aggregated records).max?
  /-- The history has the last values, in the order in which they were recorded. -/
  history : m.history = ⟨defaultCircularArraySize, (historic records).rtake defaultCircularArraySize⟩
  average : ∀ x, m.average = some x → IsMean x m.history.items
  median : ∀ x, m.median = some x → IsMedian x m.history.items

/-! ## Average and median -/

theorem average_isMean {l : List ℚ} (h : l ≠ []) : IsMean (average l) l := by
  refine ⟨h, ?_⟩
  rcases l with _ | ⟨x, _ | ⟨y, l⟩⟩
  · exact absurd rfl h
  · simp [average]
  · simp only [average, List.sum_eq_foldl]

theorem median_isMedian {l : List ℚ} (h : l ≠ []) : IsMedian (median l) l := by
  rcases l with _ | ⟨x, _ | ⟨y, l⟩⟩
  · exact absurd rfl h
  · exact ⟨[x], List.Perm.refl _, List.pairwise_singleton _ x, x, x, by simp, by simp, (add_self_div_two x).symm⟩
  · have hperm := List.perm_insertionSort (· ≤ ·) (x :: y :: l)
    have hlen := hperm.length_eq
    refine ⟨_, hperm, List.pairwise_insertionSort _ _, ?_⟩
    have hlow : ((x :: y :: l).length - 1) / 2 < ((x :: y :: l).insertionSort (· ≤ ·)).length := by
      rw [hlen, List.length_cons]
      omega
    have hhigh : (x :: y :: l).length / 2 < ((x :: y :: l).insertionSort (· ≤ ·)).length := by
      rw [hlen, List.length_cons]
      omega
    refine ⟨_, _, List.getElem?_eq_getElem hlow, List.getElem?_eq_getElem hhigh, ?_⟩
    simp only [median, hlen, List.getD_eq_getElem?_getD, List.getElem?_eq_getElem hlow, List.getElem?_eq_getElem hhigh,
      Option.getD_some]

/-! ## One call -/

theorem records_init : Records [] .init where
  aggregate := rfl
  minimum := rfl
  maximum := rfl
  history := rfl
  average := by rintro x ⟨⟩
  median := by rintro x ⟨⟩

theorem map_filter_concat (p : Record → Bool) (records : List Record) (r : Record) :
    ((records ++ [r]).filter p).map (·.value) =
      (records.filter p).map (·.value) ++ if p r then [r.value] else [] := by
  rw [List.filter_append, List.map_append, List.filter_singleton]
  cases p r <;> rfl

theorem min?_concat (l : List ℚ) (x : ℚ) : (l ++ [x]).min? = some (l.min?.elim x (min x)) := by
  cases l with
  | nil => rfl
  | cons y l =>
    rw [List.cons_append, List.min?_cons', List.foldl_append, List.min?_cons']
    exact congrArg some (min_comm _ _)

theorem max?_concat (l : List ℚ) (x : ℚ) : (l ++ [x]).max? = some (l.max?.elim x (max x)) := by
  cases l with
  | nil => rfl
  | cons y l =>
    rw [List.cons_append, List.max?_cons', List.foldl_append, List.max?_cons']
    exact congrArg some (max_comm _ _)

section Update
variable {records : List Record} {m : MeasurementStatistics} {r : Record}

/-- What a call counts, whatever else is required. -/
def count (m : MeasurementStatistics) (value : ℚ) : MeasurementStatistics :=
  { m with
    aggregate := some (m.aggregate.getD 0 + value)
    minimum := some (m.minimum.elim value (min value))
    maximum := some (m.maximum.elim value (max value)) }

theorem update_off (h : r.requirements.aggregate = false) :
    updateMeasurementStatistics m r.requirements r.value = m := by
  simp [updateMeasurementStatistics, h]

theorem update_counted (h : r.requirements.aggregate = true)
    (hk : (r.requirements.average || r.requirements.median) = false) :
    updateMeasurementStatistics m r.requirements r.value = count m r.value := by
  simp only [updateMeasurementStatistics, h, hk]
  rfl

theorem update_kept (h : r.requirements.aggregate = true)
    (hk : (r.requirements.average || r.requirements.median) = true) :
    updateMeasurementStatistics m r.requirements r.value =
      { count m r.value with
        history := m.history.push r.value
        average := if r.requirements.average then some (average (m.history.push r.value).items) else none
        median := if r.requirements.median then some (median (m.history.push r.value).items) else none } := by
  simp only [updateMeasurementStatistics, h, hk]
  rfl

theorem aggregate_concat (h : m.aggregate = if aggregated records = [] then none else some (aggregated records).sum) :
    some (m.aggregate.getD 0 + r.value) =
      if aggregated records ++ [r.value] = [] then none else some (aggregated records ++ [r.value]).sum := by
  rw [if_neg (List.concat_ne_nil _ _), List.sum_append, List.sum_singleton, h]
  split
  · rename_i hnil
    rw [hnil]
    rfl
  · rfl

theorem push_ne_nil (a : CircularArray ℚ) (x : ℚ) (h : 0 < a.size) : (a.push x).items ≠ [] := by
  rw [← push_singleton, push_eq]
  intro hnil
  have hlen := congrArg List.length hnil
  rw [length_rtake, List.length_append, List.length_singleton, List.length_nil] at hlen
  omega

/-- The last elements of what was kept and one more are those of all and one more. -/
theorem push_rtake (l : List ℚ) (n : Nat) (x : ℚ) :
    (CircularArray.push ⟨n, l.rtake n⟩ x) = ⟨n, (l ++ [x]).rtake n⟩ := by
  rw [← push_singleton, push_eq]
  simp only [rtake_append, rtake_rtake (Nat.sub_le _ _)]

theorem Records.update (h : Records records m) :
    Records (records ++ [r]) (updateMeasurementStatistics m r.requirements r.value) := by
  have haggregated : aggregated (records ++ [r]) = aggregated records ++ _ := map_filter_concat _ records r
  have hhistoric : historic (records ++ [r]) = historic records ++ _ := map_filter_concat _ records r
  cases hagg : r.requirements.aggregate with
  | false =>
    rw [hagg, if_neg Bool.false_ne_true, List.append_nil] at haggregated
    rw [hagg, Bool.false_and, if_neg Bool.false_ne_true, List.append_nil] at hhistoric
    rw [update_off hagg]
    refine ⟨?_, ?_, ?_, ?_, h.average, h.median⟩
    · rw [haggregated, h.aggregate]
    · rw [haggregated, h.minimum]
    · rw [haggregated, h.maximum]
    · rw [hhistoric, h.history]
  | true =>
    rw [hagg, if_pos rfl] at haggregated
    rw [hagg, Bool.true_and] at hhistoric
    have hsum := aggregate_concat (r := r) h.aggregate
    have hmin := min?_concat (aggregated records) r.value
    have hmax := max?_concat (aggregated records) r.value
    rw [← haggregated] at hsum hmin hmax
    rw [← h.minimum] at hmin
    rw [← h.maximum] at hmax
    cases hk : r.requirements.average || r.requirements.median with
    | false =>
      rw [hk, if_neg Bool.false_ne_true, List.append_nil] at hhistoric
      rw [update_counted hagg hk]
      exact ⟨hsum, hmin.symm, hmax.symm, by rw [hhistoric]; exact h.history, h.average, h.median⟩
    | true =>
      rw [hk, if_pos rfl] at hhistoric
      rw [update_kept hagg hk]
      have hne : (m.history.push r.value).items ≠ [] := by
        apply push_ne_nil
        rw [h.history]
        exact Nat.succ_pos 1023
      refine ⟨hsum, hmin.symm, hmax.symm, ?_, ?_, ?_⟩
      · rw [hhistoric, ← push_rtake, ← h.history]
      · intro x hx
        obtain ⟨-, hx⟩ := Option.ite_none_right_eq_some.1 hx
        exact Option.some.inj hx ▸ average_isMean hne
      · intro x hx
        obtain ⟨-, hx⟩ := Option.ite_none_right_eq_some.1 hx
        exact Option.some.inj hx ▸ median_isMedian hne

end Update

/-! ## Any number of calls -/

theorem recordAll_records (records : List Record) : Records records (recordAll records) := by
  induction records using List.reverseRecOn with
  | nil => exact records_init
  | append_singleton records r ih =>
    rw [recordAll, List.foldl_append]
    exact ih.update

end Poolifier
