import Mathlib.Data.List.Dedup
import Mathlib.Tactic.Choose
import Payroll.Proofs.Run.Totals
import Payroll.Proofs.Sorting

namespace Payroll

/-!
# Runs over groups of the staff

A run over all of the staff can be split into runs over its groups.  If there is room for the totals
of the whole, each group has a run, made up of the lines of its workers, and the totals of these
runs add up to the totals of the whole.

* `linesAt` — the lines of the workers that a test selects.
* `sum_map_fibers` — a sum over elements is the sum over their keys of the sums for each key.
* `groupsOf` — the groups of those who take part.
* `PayrollRun.preview_group` — **the run of a group**.
* `PayrollRun.preview_partition` — **the runs of the groups add up** to the run over all.
-/

/-- Of lines that belong to workers in the same order, those of the workers that a test selects. -/
def linesAt (select : Worker → Bool) (workers : List Worker) (lines : List Line) : List Line :=
  ((workers.zip lines).filter fun x => select x.1).map Prod.snd

/-- The groups of the workers who take part, each of them once. -/
def groupsOf (workers : List Worker) : List String :=
  ((eligible .all workers).map Worker.personnelGroup).dedup

/-! ### Selected lines -/

section

variable {workers : List Worker} {lines : List Line} {R : Worker → Line → Prop}

/-- They are some of the lines. -/
theorem sublist_linesAt (hlength : workers.length = lines.length) (select : Worker → Bool) :
    (linesAt select workers lines).Sublist lines := by
  have hpart : (linesAt select workers lines).Sublist ((workers.zip lines).map Prod.snd) :=
    List.filter_sublist.map Prod.snd
  rwa [List.map_snd_zip hlength.ge] at hpart

/-- Selected lines belong to the selected workers. -/
theorem forall₂_linesAt (h : List.Forall₂ R workers lines) (select : Worker → Bool) :
    List.Forall₂ R (workers.filter select) (linesAt select workers lines) := by
  induction h with
  | nil => exact .nil
  | @cons w line ws lines hw _ ih =>
    rw [linesAt, List.zip_cons_cons]
    cases hselect : select w with
    | true =>
      rw [List.filter_cons_of_pos hselect, List.filter_cons_of_pos (by exact hselect)]
      exact .cons hw ih
    | false =>
      rw [List.filter_cons_of_neg (by simp [hselect]), List.filter_cons_of_neg (by simp [hselect])]
      exact ih

end

/-- The workers of a group who take part. -/
theorem eligible_group (g : String) (workers : List Worker) :
    eligible (.group g) workers
      = (eligible .all workers).filter fun w => w.personnelGroup == g := by
  rw [eligible, eligible, List.filter_filter]
  refine List.filter_congr fun w _ => ?_
  simp only [Scope.includes, Bool.and_true]
  rw [Bool.and_comm, Bool.beq_comm (a := g)]

/-- A group is one of those who take part if one of its workers does. -/
theorem mem_groupsOf {g : String} {workers : List Worker} :
    g ∈ groupsOf workers ↔ ∃ w ∈ workers, w.isActive = true ∧ w.personnelGroup = g := by
  rw [groupsOf, List.mem_dedup, List.mem_map]
  simp [eligible, Scope.includes, and_assoc]

theorem eligible_group_ne_nil {g : String} {workers : List Worker} (hg : g ∈ groupsOf workers) :
    eligible (.group g) workers ≠ [] := by
  obtain ⟨w, hw, hactive, hgroup⟩ := mem_groupsOf.1 hg
  refine List.ne_nil_of_mem (a := w) (List.mem_filter.2 ⟨hw, ?_⟩)
  simp [hactive, Scope.includes, hgroup]

/-! ### Sums by key -/

/-- **A sum over elements** is the sum over their keys of the sums for each key. -/
theorem sum_map_fibers {α κ M : Type} [DecidableEq κ] [AddCommMonoid M] {keys : List κ}
    (hkeys : keys.Nodup) (key : α → κ) (weight : α → M) {xs : List α}
    (hxs : ∀ x ∈ xs, key x ∈ keys) :
    (keys.map fun k => ((xs.filter fun x => key x == k).map weight).sum).sum
      = (xs.map weight).sum := by
  -- The elements of the keys, one key after the other, are all elements.
  have hgroups := ((flatMap_filter_perm hkeys hxs).map weight).sum_eq
  rw [List.map_flatMap, List.flatMap, List.sum_flatten, List.map_map] at hgroups
  exact hgroups

/-- Over the groups of workers, the sums over their lines add up to the sum over all lines. -/
theorem sum_map_linesAt {M : Type} [AddCommMonoid M] {workers : List Worker} {lines : List Line}
    (hlength : workers.length = lines.length) (weight : Line → M) :
    ((workers.map Worker.personnelGroup).dedup.map fun g =>
        ((linesAt (fun w => w.personnelGroup == g) workers lines).map weight).sum).sum
      = (lines.map weight).sum := by
  have hcovered : ∀ x ∈ workers.zip lines,
      x.1.personnelGroup ∈ (workers.map Worker.personnelGroup).dedup := by
    intro x hx
    exact List.mem_dedup.2 (List.mem_map_of_mem (List.of_mem_zip hx).1)
  have hsum := sum_map_fibers (List.nodup_dedup _) (fun x : Worker × Line => x.1.personnelGroup)
    (fun x => weight x.2) hcovered
  have hall : (workers.zip lines).map (fun x => weight x.2) = lines.map weight := by
    rw [show (fun x : Worker × Line => weight x.2) = weight ∘ Prod.snd from rfl, ← List.map_map,
      List.map_snd_zip hlength.ge]
  rw [hall] at hsum
  rw [← hsum]
  simp only [linesAt, List.map_map]
  rfl

namespace PayrollRun

variable {config : EngineConfig} {key : RunKey} {workers : List Worker} {plan : ConceptPlan}
  {now : Int} {run : PayrollRun}

/-- **The run of a group**: if there is room for the totals of a run over all, each group of those
    who take part has a run, of the lines of its workers, with exact totals. -/
theorem preview_group (h : preview config key .all workers plan now = .ok run)
    (hroom : RunTotals.HasRoom run.lines) {g : String} (hg : g ∈ groupsOf workers) :
    ∃ totals,
      totals.Exact (linesAt (fun w => w.personnelGroup == g) (eligible .all workers) run.lines) ∧
      totals.workerCount
        = (linesAt (fun w => w.personnelGroup == g) (eligible .all workers) run.lines).length ∧
      ∀ now', preview config key (.group g) workers plan now' = .ok
        { key := key, scope := .group g, status := .preview, totals := totals,
          lines := linesAt (fun w => w.personnelGroup == g) (eligible .all workers) run.lines,
          computedAt := now', engineVersion := currentVersion } := by
  obtain ⟨_, hplan, lines, _, hlines, _, rfl⟩ := preview_eq_ok_iff.1 h
  have hsound := sound_of_forall₂ hlines
  have hpart := sublist_linesAt hlines.length_eq fun w => w.personnelGroup == g
  obtain ⟨totals, htotals, hexact⟩ := RunTotals.ofLines?_exact
    (fun line hline => hsound line (hpart.subset hline)) (hroom.sublist hsound hpart)
  refine ⟨totals, hexact, (RunTotals.ofLines?_eq_some_iff.1 htotals).1, fun now' => ?_⟩
  refine preview_eq_ok_iff.2 ⟨eligible_group_ne_nil hg, hplan, _, totals, ?_, htotals, rfl⟩
  rw [eligible_group]
  exact forall₂_linesAt hlines _

/-- Lines of a preview, as many as eligible workers, are sound, and if there is room their
    totals are exact. -/
theorem exact_of_preview {scope : Scope} (h : preview config key scope workers plan now = .ok run)
    (hroom : RunTotals.HasRoom run.lines) :
    (eligible scope workers).length = run.lines.length ∧ run.totals.workerCount = run.lines.length ∧
      run.totals.Exact run.lines := by
  obtain ⟨_, _, lines, totals, hlines, htotals, rfl⟩ := preview_eq_ok_iff.1 h
  obtain ⟨totals', htotals', hexact⟩ := RunTotals.ofLines?_exact (sound_of_forall₂ hlines) hroom
  obtain rfl := Option.some.inj (htotals.symm.trans htotals')
  exact ⟨hlines.length_eq, (RunTotals.ofLines?_eq_some_iff.1 htotals).1, hexact⟩

/-- **The runs of the groups add up to the run over all.**  If there is room for what the lines of a
    run over all of the staff earn, deduct and contribute, each group with a worker who takes part
    has a run, made up of the lines of its workers in their order; and over these groups, the number
    of workers and each of the four totals add up exactly to those of the whole. -/
theorem preview_partition (h : preview config key .all workers plan now = .ok run)
    (hroom : RunTotals.HasRoom run.lines) :
    ∃ parts : String → PayrollRun,
      (∀ g, (∃ w ∈ workers, w.isActive = true ∧ w.personnelGroup = g) →
        (parts g).lines
          = linesAt (fun w => w.personnelGroup == g) (eligible .all workers) run.lines ∧
        ∀ now', preview config key (.group g) workers plan now'
          = .ok { parts g with computedAt := now' }) ∧
      let groups := ((eligible .all workers).map Worker.personnelGroup).dedup
      (groups.map fun g => (parts g).totals.workerCount).sum = run.totals.workerCount ∧
        (groups.map fun g => (parts g).totals.totalEarnings.value).sum
          = run.totals.totalEarnings.value ∧
        (groups.map fun g => (parts g).totals.totalDeductions.value).sum
          = run.totals.totalDeductions.value ∧
        (groups.map fun g => (parts g).totals.totalContributions.value).sum
          = run.totals.totalContributions.value ∧
        (groups.map fun g => (parts g).totals.netPay.value).sum = run.totals.netPay.value := by
  have hnonempty : Nonempty RunTotals := ⟨.zero⟩
  choose! totals hexact hcount hpreview using fun g hg => preview_group h hroom (g := g) hg
  obtain ⟨hlength, hworkers, hall⟩ := exact_of_preview h hroom
  -- What is the exact sum for each group is the exact sum for the whole.
  have hsum : ∀ (figure : Line → Decimal) (total : RunTotals → Decimal),
      (∀ g ∈ groupsOf workers, (total (totals g)).value = Line.exactSum figure
        (linesAt (fun w => w.personnelGroup == g) (eligible .all workers) run.lines)) →
      ((groupsOf workers).map fun g => (total (totals g)).value).sum
        = Line.exactSum figure run.lines := by
    intro figure total hgroup
    rw [List.map_congr_left hgroup]
    exact sum_map_linesAt hlength fun line => (figure line).value
  have hone : ∀ lines : List Line, (lines.map fun _ => 1).sum = lines.length := by simp
  have hworkersum : ((groupsOf workers).map fun g => (totals g).workerCount).sum
      = run.lines.length := by
    rw [List.map_congr_left hcount, ← hone, ← sum_map_linesAt hlength fun _ => 1]
    simp only [hone]
    rfl
  refine ⟨fun g => ⟨key, .group g, .preview, totals g,
    linesAt (fun w => w.personnelGroup == g) (eligible .all workers) run.lines, 0, currentVersion⟩,
    fun g hg => ⟨rfl, fun now' => hpreview g (mem_groupsOf.2 hg) now'⟩,
    hworkersum.trans hworkers.symm, ?_⟩
  exact ⟨(hsum _ RunTotals.totalEarnings fun g hg => (hexact g hg).earnings).trans
      hall.earnings.symm,
    (hsum _ RunTotals.totalDeductions fun g hg => (hexact g hg).deductions).trans
      hall.deductions.symm,
    (hsum _ RunTotals.totalContributions fun g hg => (hexact g hg).contributions).trans
      hall.contributions.symm,
    (hsum _ RunTotals.netPay fun g hg => (hexact g hg).netPay).trans hall.netPay.symm⟩

/-- Two workers of one group, one of another, and one of a third group who takes no part. -/
def crew : List Worker :=
  [Line.clerk, { Line.clerk with id := "w2", basicSalary := .ofNat 300, personnelGroup := "depot" },
    { Line.clerk with id := "w3", basicSalary := .ofNat 300 },
    { Line.clerk with id := "w4", personnelGroup := "night", status := .inactive }]

theorem preview_partition_crew :
    ∃ run office depot, preview {} ⟨⟨2025, 3, by decide⟩, .regular⟩ .all crew loans 0 = .ok run ∧
      preview {} ⟨⟨2025, 3, by decide⟩, .regular⟩ (.group "office") crew loans 1 = .ok office ∧
      preview {} ⟨⟨2025, 3, by decide⟩, .regular⟩ (.group "depot") crew loans 2 = .ok depot ∧
      office.lines.map Line.workerId = ["w1", "w3"] ∧ depot.lines.map Line.workerId = ["w2"] ∧
      run.totals.workerCount = 3 ∧
      depot.totals.netPay.value + office.totals.netPay.value = run.totals.netPay.value := by
  have hcomputed : (preview {} ⟨⟨2025, 3, by decide⟩, .regular⟩ .all crew loans 0).toOption.any
      (fun run => run.lines.map Line.workerId == ["w1", "w2", "w3"]
        && (linesAt (fun w => w.personnelGroup == "office") (eligible .all crew) run.lines).map
          Line.workerId == ["w1", "w3"]
        && (linesAt (fun w => w.personnelGroup == "depot") (eligible .all crew) run.lines).map
          Line.workerId == ["w2"]
        && run.totals.workerCount == 3 && decide (RunTotals.HasRoom run.lines)) = true := by
    decide +kernel
  obtain ⟨run, hrun, htest⟩ := exists_ok_of_any hcomputed
  simp only [Bool.and_eq_true, beq_iff_eq, decide_eq_true_eq] at htest
  obtain ⟨⟨⟨⟨_, hoffice⟩, hdepot⟩, hcount⟩, hroom⟩ := htest
  obtain ⟨parts, hparts, _, _, _, _, hnet⟩ := preview_partition hrun hroom
  obtain ⟨hofficelines, hofficerun⟩ := hparts "office" ⟨Line.clerk, by decide +kernel, rfl, rfl⟩
  obtain ⟨hdepotlines, hdepotrun⟩ := hparts "depot" (by decide +kernel)
  have hgroups : ((eligible .all crew).map Worker.personnelGroup).dedup = ["depot", "office"] := by
    decide +kernel
  rw [hgroups] at hnet
  refine ⟨run, _, _, hrun, hofficerun 1, hdepotrun 2, ?_, ?_, hcount, by simpa using hnet⟩
  · exact hofficelines ▸ hoffice
  · exact hdepotlines ▸ hdepot

end PayrollRun

end Payroll
