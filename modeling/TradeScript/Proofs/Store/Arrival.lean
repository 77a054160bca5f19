import TradeScript.Proofs.Store.View

/-!
# TradeScript.Proofs.Store.Arrival

Results for one document arrive in some order. What stands in the end is the
last one to arrive among those of the greatest revision (`newest`), whatever else
the store holds. So the order of arrival decides only between results of the same
revision: if no two have the same, every order leaves the same result.
-/

namespace TradeScript.Store

/-- Publish results for one document, one after the other. -/
def publishAll (store : Store) (id : String) : List Published → Store
  | [] => store
  | p :: rest => publishAll (store.publish id p.revision p.diagnostics).2 id rest

/-- The results of the greatest revision, in their order. -/
def newest (results : List Published) : List Published :=
  results.filter fun p => results.all fun q => q.revision ≤ p.revision

variable {store : Store} {id : String} {results order : List Published} {p q : Published}

/-! ### Results of the greatest revision -/

theorem mem_newest :
    p ∈ newest results ↔ p ∈ results ∧ ∀ q ∈ results, q.revision ≤ p.revision := by
  simp [newest]

theorem exists_mem_newest (hp : p ∈ results) : ∃ q, q ∈ newest results := by
  induction results generalizing p with
  | nil => exact absurd hp List.not_mem_nil
  | cons first rest ih =>
      by_cases hfirst : ∀ q ∈ rest, q.revision ≤ first.revision
      · refine ⟨first, mem_newest.mpr ⟨List.mem_cons_self, ?_⟩⟩
        exact List.forall_mem_cons.mpr ⟨Nat.le_refl _, hfirst⟩
      · obtain ⟨later, hlater, hlt⟩ : ∃ q ∈ rest, first.revision < q.revision := by
          simpa using hfirst
        obtain ⟨q, hq⟩ := ih hlater
        obtain ⟨hmem, hmax⟩ := mem_newest.mp hq
        have hle : first.revision ≤ q.revision :=
          Nat.le_trans (Nat.le_of_lt hlt) (hmax later hlater)
        exact ⟨q, mem_newest.mpr
          ⟨List.mem_cons_of_mem _ hmem, List.forall_mem_cons.mpr ⟨hle, hmax⟩⟩⟩

/-- A result that is older than one before it is not among the newest and does not
displace any of them. -/
theorem newest_concat_of_lt (hq : q ∈ results) (hlt : p.revision < q.revision) :
    newest (results ++ [p]) = newest results := by
  have hlast :
      [p].filter (fun r => (results ++ [p]).all fun q => q.revision ≤ r.revision) = [] := by
    rw [List.filter_eq_nil_iff]
    intro r hr hall
    obtain rfl := List.mem_singleton.mp hr
    have hle := of_decide_eq_true (List.all_eq_true.mp hall q (List.mem_append_left _ hq))
    exact Nat.not_le.mpr hlt hle
  rw [newest, List.filter_append, hlast, List.append_nil]
  refine List.filter_congr fun r _ => ?_
  -- Whatever is at least as new as `q` is newer than `p`.
  rw [List.all_append, Bool.eq_iff_iff]
  simp only [List.all_eq_true, List.all_cons, List.all_nil, Bool.and_true, Bool.and_eq_true,
    decide_eq_true_eq, and_iff_left_iff_imp]
  intro hmax
  exact Nat.le_of_lt (Nat.lt_of_lt_of_le hlt (hmax q hq))

/-- A result that is not older than any before it is the last of the newest. -/
theorem getLast?_newest_concat (hmax : ∀ q ∈ results, q.revision ≤ p.revision) :
    (newest (results ++ [p])).getLast? = some p := by
  have hall : (results ++ [p]).all (fun q => q.revision ≤ p.revision) = true := by
    simpa using hmax
  rw [newest, List.filter_append, List.filter_cons, if_pos hall, List.filter_nil,
    List.getLast?_concat]

/-! ### One result after the other -/

/-- One more result: what stood as the last of the newest still does. -/
theorem get?_publish_of_newest (h : store.get? id = (newest results).getLast?) (p : Published) :
    (store.publish id p.revision p.diagnostics).2.get? id =
      (newest (results ++ [p])).getLast? := by
  rcases replace_cases (store.note id p.revision) id ⟨p.revision, p.diagnostics⟩ with
    ⟨current, hget, hlt, hr⟩ | ⟨hle, hr⟩
  · rw [get?_note, h] at hget
    have hmem := (mem_newest.mp (List.mem_of_getLast? hget)).1
    rw [publish, hr, get?_note, newest_concat_of_lt hmem hlt, h]
  · have hmax : ∀ q ∈ results, q.revision ≤ p.revision := by
      intro q hq
      obtain ⟨r, hr⟩ := exists_mem_newest hq
      obtain ⟨current, hlast⟩ := Option.isSome_iff_exists.mp
        (List.getLast?_isSome.mpr (List.ne_nil_of_mem hr))
      have hnewest := (mem_newest.mp (List.mem_of_getLast? hlast)).2
      exact Nat.le_trans (hnewest q hq) (hle current (h.trans hlast))
    rw [publish, hr, get?_insert_documents, if_pos rfl, getLast?_newest_concat hmax]

theorem get?_publishAll_of_newest (h : store.get? id = (newest results).getLast?)
    (more : List Published) :
    (store.publishAll id more).get? id = (newest (results ++ more)).getLast? := by
  induction more generalizing store results with
  | nil => rw [publishAll, List.append_nil, h]
  | cons p more ih =>
      rw [publishAll, ih (get?_publish_of_newest h p), List.append_assoc, List.singleton_append]

/-! ### Every order -/

theorem newest_perm (hperm : order.Perm results) : (newest order).Perm (newest results) := by
  have hall : (fun p : Published => order.all fun q => q.revision ≤ p.revision) =
      fun p => results.all fun q => q.revision ≤ p.revision :=
    funext fun _ => hperm.all_eq
  rw [newest, hall]
  exact hperm.filter _

/-- With all revisions distinct there is one newest result, in every order. -/
theorem getLast?_newest_perm (hperm : order.Perm results)
    (hdistinct : (results.map Published.revision).Nodup) :
    (newest order).getLast? = (newest results).getLast? := by
  have hnewest := newest_perm hperm
  match hresults : newest results with
  | [] => rw [hresults, List.perm_nil] at hnewest; rw [hnewest]
  | [p] => rw [hresults, List.perm_singleton] at hnewest; rw [hnewest]
  | p :: q :: rest =>
      -- Two newest results would have the same revision.
      have hp : p ∈ newest results := hresults ▸ List.mem_cons_self
      have hq : q ∈ newest results := hresults ▸ List.mem_cons_of_mem _ List.mem_cons_self
      have heq : p.revision = q.revision :=
        Nat.le_antisymm ((mem_newest.mp hq).2 p (mem_newest.mp hp).1)
          ((mem_newest.mp hp).2 q (mem_newest.mp hq).1)
      have hnodup : ((newest results).map Published.revision).Nodup :=
        hdistinct.sublist (List.filter_sublist.map _)
      rw [hresults] at hnodup
      exact absurd (heq ▸ List.mem_cons_self) (List.nodup_cons.mp hnodup).1

/-- What stands after results for one document have arrived in some order, in a
store without an entry for it, is the last of the newest in that order; and if no
two of them have the same revision, it is the same in every order. -/
theorem published_after_all_arrived (store : Store) (id : String) (h : store.get? id = none)
    (order : List Published) :
    (store.publishAll id order).get? id = (newest order).getLast? ∧
      ((order.map Published.revision).Nodup → ∀ order', order'.Perm order →
        (store.publishAll id order').get? id = (store.publishAll id order).get? id) := by
  have harrived : ∀ arrived,
      (store.publishAll id arrived).get? id = (newest arrived).getLast? :=
    fun arrived => get?_publishAll_of_newest (h.trans rfl : _ = (newest []).getLast?) arrived
  refine ⟨harrived order, ?_⟩
  intro hdistinct order' hperm
  rw [harrived, harrived, getLast?_newest_perm hperm hdistinct]

/-- Of two results with the greatest revision the later stands, and three with
different revisions may come in either order, whatever another document holds. -/
theorem published_after_equal_revisions :
    let store := (empty.publish "b" 9 []).2
    let late := Finding.missingSemicolon.report (Range.point 0 1)
    store.get? "a" = none ∧
      (store.publishAll "a" [⟨5, []⟩, ⟨5, [late]⟩, ⟨3, []⟩]).get? "a" = some ⟨5, [late]⟩ ∧
      ([5, 7, 3] : List Nat).Nodup ∧
      (store.publishAll "a" [⟨3, []⟩, ⟨7, [late]⟩, ⟨5, []⟩]).get? "a" =
        (store.publishAll "a" [⟨5, []⟩, ⟨7, [late]⟩, ⟨3, []⟩]).get? "a" := by
  intro store late
  have habsent : store.get? "a" = none := by decide
  have hties := (published_after_all_arrived store "a" habsent
    [⟨5, []⟩, ⟨5, [late]⟩, ⟨3, []⟩]).1
  have horders := (published_after_all_arrived store "a" habsent
    [⟨5, []⟩, ⟨7, [late]⟩, ⟨3, []⟩]).2
  exact ⟨habsent, hties, by decide, horders (by decide) _ (by decide)⟩

end TradeScript.Store
