import Payroll.Commit

namespace Payroll

/-!
# Rows of lines, written and read back

Lines are written as a detail row each and a row for every application that is not zero.  This file
says what such rows leave in a transaction, and which lines they describe afterwards.

* `CommittedRun.ofLines` — the run that lines make up under a header, said without a store.
* `insert_rowsFrom` — the store takes every row of lines whose workers are distinct and new to the
  transaction.
* `insert_rowsOf` — hence the rows of a run turn an empty transaction into that run.
* `CommittedRun.lines_ofLines` — reading back gives the lines, in their order and with their
  applications, except for applications of zero.
-/

/-! ### The run of some lines -/

/-- The application rows of a line. -/
def Line.applicationRows (runId : RunId) (line : Line) : List ApplicationRow :=
  (line.applications.filter fun a => !a.amount.isZero).map fun a => ⟨runId, line.workerId, a⟩

/-- The detail rows of lines, of which the first one has the given place. -/
def detailRowsFrom (runId : RunId) (index : Nat) : List Line → List DetailRow
  | [] => []
  | line :: rest => .ofLine runId index line :: detailRowsFrom runId (index + 1) rest

/-- The application rows of lines. -/
def applicationRowsOf (runId : RunId) (lines : List Line) : List ApplicationRow :=
  lines.flatMap (Line.applicationRows runId)

/-- The run that lines make up under a header. -/
def CommittedRun.ofLines (header : RunHeader) (lines : List Line) : CommittedRun :=
  ⟨header, detailRowsFrom header.runId 0 lines, applicationRowsOf header.runId lines⟩

/-- The transaction that holds the rows of a run. -/
def Transaction.ofRun (run : CommittedRun) : Transaction :=
  ⟨some run.header, run.details, run.applications, run.details.map DetailRow.workerId⟩

@[simp] theorem Transaction.toRun?_ofRun (run : CommittedRun) : (ofRun run).toRun? = some run := rfl

theorem Line.rows_eq (runId : RunId) (index : Nat) (line : Line) :
    line.rows runId index
      = .detail (.ofLine runId index line) :: (line.applicationRows runId).map .application := by
  simp [Line.rows, Line.applicationRows, List.map_map, Function.comp_def]

@[simp] theorem map_workerId_detailRowsFrom (runId : RunId) (index : Nat) (lines : List Line) :
    (detailRowsFrom runId index lines).map DetailRow.workerId = lines.map Line.workerId := by
  induction lines generalizing index with
  | nil => rfl
  | cons line rest ih => simp [detailRowsFrom, ih, DetailRow.ofLine]

/-! ### What the store makes of the rows -/

section Staging

variable (tx : Transaction) {header : RunHeader}

theorem Transaction.hasDetail_eq_true_iff (workerId : String) :
    tx.hasDetail workerId = true ↔ workerId ∈ tx.workers :=
  List.contains_iff_mem

theorem Transaction.hasDetail_eq_false_iff (workerId : String) :
    tx.hasDetail workerId = false ↔ workerId ∉ tx.workers := by
  rw [← Transaction.hasDetail_eq_true_iff, Bool.not_eq_true]

/-- A detail row of the header's run is taken if its worker has none yet. -/
theorem Transaction.insert_detail (hh : tx.header? = some header) (row : DetailRow)
    (hr : row.runId = header.runId) (hw : tx.hasDetail row.workerId = false) :
    tx.insert (.detail row)
      = .ok
        { tx with details := tx.details ++ [row], workers := tx.workers ++ [row.workerId] } := by
  simp [Transaction.insert, Transaction.insertDetail, hh, hr, hw]

/-- Application rows of a worker with a detail row are taken, in their order. -/
theorem Transaction.insert_applications (hh : tx.header? = some header) (rows : List ApplicationRow)
    (hw : ∀ row ∈ rows, tx.hasDetail row.workerId = true) :
    (rows.map Row.application).foldlM Transaction.insert tx
      = .ok { tx with applications := tx.applications ++ rows } := by
  induction rows generalizing tx with
  | nil => simp [pure, Except.pure]
  | cons row rest ih =>
    have htake : tx.insert (.application row)
        = .ok { tx with applications := tx.applications ++ [row] } := by
      simp [Transaction.insert, Transaction.insertApplication, hh, hw row List.mem_cons_self]
    rw [List.map_cons, List.foldlM_cons, htake]
    show List.foldlM Transaction.insert _ _ = _
    -- The details stay, so the rows that follow find theirs as well.
    rw [ih { tx with applications := tx.applications ++ [row] } hh
      (fun r hr => hw r (List.mem_cons_of_mem row hr))]
    simp [List.append_assoc]

/-- **The rows of a line** are taken if its worker is new to the transaction. -/
theorem insert_line (hh : tx.header? = some header) (index : Nat) (line : Line)
    (hw : tx.hasDetail line.workerId = false) :
    (line.rows header.runId index).foldlM Transaction.insert tx
      = .ok { tx with
              details := tx.details ++ [.ofLine header.runId index line]
              applications := tx.applications ++ line.applicationRows header.runId
              workers := tx.workers ++ [line.workerId] } := by
  -- The detail row comes first, so that the application rows find their worker.
  rw [Line.rows_eq, List.foldlM_cons,
    Transaction.insert_detail tx hh (.ofLine header.runId index line) rfl hw]
  show List.foldlM Transaction.insert _ _ = _
  refine Transaction.insert_applications
    { tx with
      details := tx.details ++ [.ofLine header.runId index line]
      workers := tx.workers ++ [line.workerId] } hh _ ?_
  intro row hrow
  have hid : row.workerId = line.workerId := by
    simp only [Line.applicationRows, List.mem_map] at hrow
    obtain ⟨a, _, rfl⟩ := hrow
    rfl
  simp [Transaction.hasDetail, hid]

/-- **The rows of lines** are taken if their workers are distinct and new to the transaction. -/
theorem insert_rowsFrom (hh : tx.header? = some header) (index : Nat) (lines : List Line)
    (hd : (lines.map Line.workerId).Nodup)
    (hw : ∀ line ∈ lines, tx.hasDetail line.workerId = false) :
    (rowsFrom header.runId index lines).foldlM Transaction.insert tx
      = .ok { tx with
              details := tx.details ++ detailRowsFrom header.runId index lines
              applications := tx.applications ++ applicationRowsOf header.runId lines
              workers := tx.workers ++ lines.map Line.workerId } := by
  induction lines generalizing tx index with
  | nil => simp [rowsFrom, detailRowsFrom, applicationRowsOf, pure, Except.pure]
  | cons line rest ih =>
    rw [List.map_cons, List.nodup_cons] at hd
    rw [rowsFrom, List.foldlM_append, insert_line tx hh index line (hw line List.mem_cons_self)]
    show List.foldlM Transaction.insert _ _ = _
    rw [ih
      { tx with
        details := tx.details ++ [.ofLine header.runId index line]
        applications := tx.applications ++ line.applicationRows header.runId
        workers := tx.workers ++ [line.workerId] }
      hh (index + 1) hd.2 ?_]
    · simp [detailRowsFrom, applicationRowsOf, List.append_assoc]
    · -- Only the worker of `line` has become known, and the others differ from that one.
      intro other hother
      have hold := hw other (List.mem_cons_of_mem line hother)
      have hne : line.workerId ≠ other.workerId := by
        intro he
        exact hd.1 (he ▸ List.mem_map_of_mem hother)
      rw [Transaction.hasDetail_eq_false_iff] at hold ⊢
      rw [List.mem_append, List.mem_singleton]
      rintro (h | h)
      · exact hold h
      · exact hne h.symm

end Staging

/-- **The rows of a run** turn an empty transaction into the run, if its workers are distinct. -/
theorem insert_rowsOf (header : RunHeader) (lines : List Line)
    (hd : (lines.map Line.workerId).Nodup) :
    (rowsOf header lines).foldlM Transaction.insert {}
      = .ok (.ofRun (.ofLines header lines)) := by
  rw [rowsOf, List.foldlM_cons]
  -- Behind the header, the transaction holds no detail row.
  show List.foldlM Transaction.insert { header? := some header } _ = _
  rw [insert_rowsFrom { header? := some header } rfl 0 lines hd (fun _ _ => rfl)]
  simp [Transaction.ofRun, CommittedRun.ofLines]

/-! ### Detail rows -/

theorem length_detailRowsFrom (runId : RunId) (index : Nat) (lines : List Line) :
    (detailRowsFrom runId index lines).length = lines.length := by
  induction lines generalizing index with
  | nil => rfl
  | cons line rest ih => simp [detailRowsFrom, ih]

/-- The places of detail rows count up. -/
theorem getElem?_detailRowsFrom (runId : RunId) (index : Nat) (lines : List Line) (i : Nat) :
    (detailRowsFrom runId index lines)[i]? = lines[i]?.map (.ofLine runId (index + i)) := by
  induction lines generalizing index i with
  | nil => simp [detailRowsFrom]
  | cons line rest ih =>
    cases i with
    | zero => simp [detailRowsFrom]
    | succ i =>
      simp only [detailRowsFrom, List.getElem?_cons_succ, ih]
      rw [show index + 1 + i = index + (i + 1) by omega]

/-- A detail row belongs to one of the lines, and its place is not before the first one. -/
theorem mem_detailRowsFrom {runId : RunId} {index : Nat} {lines : List Line} {row : DetailRow}
    (h : row ∈ detailRowsFrom runId index lines) :
    ∃ i, ∃ line ∈ lines, row = .ofLine runId (index + i) line := by
  obtain ⟨i, hi⟩ := List.mem_iff_getElem?.1 h
  rw [getElem?_detailRowsFrom, Option.map_eq_some_iff] at hi
  obtain ⟨line, hline, hrow⟩ := hi
  exact ⟨i, line, List.mem_of_getElem? hline, hrow.symm⟩

/-- Detail rows are written in the order of their places. -/
theorem pairwise_detailRowsFrom (runId : RunId) (index : Nat) (lines : List Line) :
    (detailRowsFrom runId index lines).Pairwise
      fun a b => decide (a.lineIndex ≤ b.lineIndex) = true := by
  induction lines generalizing index with
  | nil => exact List.Pairwise.nil
  | cons line rest ih =>
    -- The rows behind the first one have places from `index + 1` on.
    refine List.Pairwise.cons ?_ (ih (index + 1))
    intro row hrow
    obtain ⟨i, other, _, rfl⟩ := mem_detailRowsFrom hrow
    have hle : index ≤ index + 1 + i := by omega
    exact decide_eq_true hle

/-! ### Application rows -/

theorem workerId_of_mem_applicationRows {runId : RunId} {line : Line} {row : ApplicationRow}
    (h : row ∈ line.applicationRows runId) : row.workerId = line.workerId := by
  simp only [Line.applicationRows, List.mem_map] at h
  obtain ⟨a, _, rfl⟩ := h
  rfl

/-- The rows of a worker are all the rows of that worker's line. -/
theorem filter_applicationRows_self (runId : RunId) (line : Line) :
    (line.applicationRows runId).filter (fun row => row.workerId == line.workerId)
      = line.applicationRows runId := by
  rw [List.filter_eq_self]
  intro row hrow
  rw [workerId_of_mem_applicationRows hrow, beq_self_eq_true]

/-- No row of a line belongs to another worker. -/
theorem filter_applicationRows_of_ne (runId : RunId) {line : Line} {workerId : String}
    (h : line.workerId ≠ workerId) :
    (line.applicationRows runId).filter (fun row => row.workerId == workerId) = [] := by
  rw [List.filter_eq_nil_iff]
  intro row hrow
  rw [workerId_of_mem_applicationRows hrow, beq_iff_eq]
  exact h

/-- Rows of workers that have no line do not occur. -/
theorem filter_applicationRowsOf_of_notMem (runId : RunId) {lines : List Line} {workerId : String}
    (h : workerId ∉ lines.map Line.workerId) :
    (applicationRowsOf runId lines).filter (fun row => row.workerId == workerId) = [] := by
  rw [applicationRowsOf, List.filter_flatMap, List.flatMap_eq_nil_iff]
  intro line hline
  refine filter_applicationRows_of_ne runId ?_
  rintro rfl
  exact h (List.mem_map_of_mem hline)

/-- **Regrouping.** If workers are distinct, the rows of a worker are those of their line. -/
theorem filter_applicationRowsOf (runId : RunId) {lines : List Line}
    (hd : (lines.map Line.workerId).Nodup) {line : Line} (hl : line ∈ lines) :
    (applicationRowsOf runId lines).filter (fun row => row.workerId == line.workerId)
      = line.applicationRows runId := by
  induction lines with
  | nil => simp at hl
  | cons head rest ih =>
    rw [List.map_cons, List.nodup_cons] at hd
    rw [applicationRowsOf, List.flatMap_cons, List.filter_append, ← applicationRowsOf]
    rcases List.mem_cons.1 hl with rfl | htail
    · -- The line is the first one: all its rows stay, and those of the rest go.
      rw [filter_applicationRows_self, filter_applicationRowsOf_of_notMem runId hd.1,
        List.append_nil]
    · -- The line is further back: the rows of the first one go.
      have hne : head.workerId ≠ line.workerId := by
        intro he
        exact hd.1 (he ▸ List.mem_map_of_mem htail)
      rw [filter_applicationRows_of_ne runId hne, List.nil_append]
      exact ih hd.2 htail

/-! ### Reading back -/

/-- A line without its applications of zero, which are not stored. -/
def Line.withoutZeros (line : Line) : Line :=
  { line with applications := line.applications.filter fun a => !a.amount.isZero }

/-- What is read back of a line is the line without zeros. -/
theorem toLine_ofLine_applicationRows (runId : RunId) (index : Nat) (line : Line) :
    (DetailRow.ofLine runId index line).toLine
        ((line.applicationRows runId).map ApplicationRow.application) = line.withoutZeros := by
  simp [Line.applicationRows, Line.withoutZeros, DetailRow.ofLine, DetailRow.toLine,
    List.map_map, Function.comp_def]

theorem map_toLine_detailRowsFrom (runId : RunId) (index : Nat) (lines : List Line)
    (applications : String → List Application)
    (h : ∀ line ∈ lines, applications line.workerId
      = (line.applicationRows runId).map ApplicationRow.application) :
    (detailRowsFrom runId index lines).map (fun row => row.toLine (applications row.workerId))
      = lines.map Line.withoutZeros := by
  induction lines generalizing index with
  | nil => rfl
  | cons line rest ih =>
    rw [detailRowsFrom, List.map_cons, List.map_cons,
      ih (index + 1) (fun l hl => h l (List.mem_cons_of_mem line hl))]
    have hw : (DetailRow.ofLine runId index line).workerId = line.workerId := rfl
    rw [hw, h line List.mem_cons_self, toLine_ofLine_applicationRows]

/-- **Reading back.** The rows of lines with distinct workers describe these lines again, except
    for applications of zero. -/
theorem CommittedRun.lines_ofLines (header : RunHeader) {lines : List Line}
    (hd : (lines.map Line.workerId).Nodup) :
    (ofLines header lines).lines = lines.map Line.withoutZeros := by
  -- Detail rows are written in the order of their places, so that sorting leaves them as they are.
  have hsort : (ofLines header lines).details.mergeSort
      (fun a b => decide (a.lineIndex ≤ b.lineIndex)) = detailRowsFrom header.runId 0 lines :=
    List.mergeSort_of_pairwise (pairwise_detailRowsFrom header.runId 0 lines)
  rw [CommittedRun.lines, hsort]
  refine map_toLine_detailRowsFrom header.runId 0 lines _ ?_
  intro line hline
  rw [CommittedRun.applicationsOf]
  exact congrArg (List.map ApplicationRow.application)
    (filter_applicationRowsOf header.runId hd hline)

/-- Lines that hold no application of zero are read back as they were. -/
theorem Line.withoutZeros_eq_self {line : Line}
    (h : ∀ a ∈ line.applications, a.amount.isZero = false) : line.withoutZeros = line := by
  have hall : line.applications.filter (fun a => !a.amount.isZero) = line.applications := by
    rw [List.filter_eq_self]
    intro a ha
    rw [h a ha, Bool.not_false]
  rw [Line.withoutZeros, hall]

end Payroll
