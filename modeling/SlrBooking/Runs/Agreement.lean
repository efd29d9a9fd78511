import SlrBooking.Adapters.SqlRepo
import SlrBooking.Runs.Calls

/-!
# `Runs.Agreement` — the in-memory repository refines the Postgres one

Two units of work run the same sequence of blocks, one over the dictionary with its snapshot, one over the
table with its constraint and transactions. The simulation relation is `InBlock`: what the session sees is
the dictionary's contents, what is committed is the snapshot's.

## Contents
- `RepoOp`, `Block`, `Answer`, `Agrees`: the operations, what a caller observes of one, and when two
  observations agree (lists as multisets, errors by class).
- `Allowed`: what a caller does before each operation.
- `Mirror`, `InBlock`: the relation; one agreement lemma for each operation.
- `memory_refines_sql`: equal answers and equal contents after every block.
-/

namespace SlrBooking

open Theory Rows

/-- The booking repository's methods. -/
inductive RepoOp where
  | addHold (hold : Hold)
  | get (bookingId : String)
  | byReference (reference : String)
  | setStatus (bookingId : String) (status : BookingStatus)
  | activeForSeat (tripId seatId : String)
  | activeForPassenger (tripId passengerId : String)
  | activeHolds (tripId : String)
  | byStatus (tripId : String) (status : BookingStatus)
  | expireDue (now : Int)

@[reducible] def RepoOp.port : RepoOp → PortOp
  | .addHold hold => .addHold hold
  | .get id => .get id
  | .byReference reference => .byReference reference
  | .setStatus id status => .setStatus id status
  | .activeForSeat tripId seatId => .activeForSeat tripId seatId
  | .activeForPassenger tripId passengerId => .activeForPassenger tripId passengerId
  | .activeHolds tripId => .activeHolds tripId
  | .byStatus tripId status => .byStatus tripId status
  | .expireDue now => .expireDue now

/-- What a caller observes of one operation: nothing, a booking, perhaps a booking, bookings, or an exception of some
    class. -/
inductive Answer where
  | done
  | record (h : Hold)
  | found (h : Option Hold)
  | records (hs : List Hold)
  | raised (e : ErrClass)

def observed {α : Type} (f : α → Answer) : Except Err α → Answer
  | .ok a => f a
  | .error e => .raised e.class

def observe : (o : RepoOp) → Except Err o.port.Res → Answer
  | .addHold _, r => observed (fun _ => .done) r
  | .get _, r => observed .record r
  | .byReference _, r => observed .found r
  | .setStatus _ _, r => observed .record r
  | .activeForSeat _ _, r => observed .records r
  | .activeForPassenger _ _, r => observed .records r
  | .activeHolds _, r => observed .records r
  | .byStatus _ _, r => observed .records r
  | .expireDue _, r => observed .records r

/-- Two answers agree when they are equal, lists as multisets: neither repository promises an order of its bookings. -/
def Agrees : Answer → Answer → Prop
  | .records a, .records b => a.Perm b
  | a, b => a = b

/-- One `with` block: its operations, each with the order the server happens to return rows in during it, and
    whether it ends by commit or is abandoned. -/
structure Block where
  ops     : List (RepoOp × Scan)
  commits : Bool

/-! ## The two sides -/

/-- One operation on the dictionary. -/
def memoryOp (o : RepoOp) (w : World) : Answer × World :=
  (observe o (World.exec declineAll o.port w).1, (World.exec declineAll o.port w).2)

def memoryOps : List (RepoOp × Scan) → World → List Answer × World
  | [], w => ([], w)
  | (o, _) :: rest, w =>
    ((memoryOp o w).1 :: (memoryOps rest (memoryOp o w).2).1, (memoryOps rest (memoryOp o w).2).2)

/-- A block on the dictionary, and the contents it leaves. -/
def memoryBlock (b : Block) (w : World) : List Answer × World :=
  let inside := memoryOps b.ops { w with uow := w.uow.enter }
  let ended := if b.commits then { inside.2 with uow := inside.2.uow.commit } else inside.2
  (inside.1, { ended with uow := ended.uow.exit })

/-- The session alone on the server: a statement is never blocked. -/
def alone (scan : Scan) (o : Stmt) (s : Server) : Except Err o.Res × Server :=
  (Server.exec scan declineAll 0 o s).getD (.error (.integrityError "lock wait"), s)

/-- One operation on the table. -/
def sqlOp (o : RepoOp) (scan : Scan) (s : Server) : Answer × Server :=
  (observe o ((SqlRepo.method o.port).run (alone scan) s).1, ((SqlRepo.method o.port).run (alone scan) s).2)

def sqlOps : List (RepoOp × Scan) → Server → List Answer × Server
  | [], s => ([], s)
  | (o, scan) :: rest, s =>
    ((sqlOp o scan s).1 :: (sqlOps rest (sqlOp o scan s).2).1, (sqlOps rest (sqlOp o scan s).2).2)

/-- A block on the table, and the contents it leaves. -/
def sqlBlock (b : Block) (s : Server) : List Answer × Server :=
  let inside := sqlOps b.ops s
  let ended := if b.commits then { inside.2 with db := inside.2.db.commit bookingTable 0 } else inside.2
  (inside.1, Server.close 0 ended)

/-! ## What callers do -/

/-- What a caller makes sure of before an operation, on the contents it sees: a new booking has a new id and a new
    reference and either takes a seat or stands, a status is set along the machine, and a seat that is asked about has a
    name. -/
def Allowed (holds : List Hold) : RepoOp → Prop
  | .addHold h => (∀ x ∈ holds, x.bookingId ≠ h.bookingId) ∧ (∀ x ∈ holds, x.reference ≠ h.reference) ∧
      ((h.status.isActive = true ∧ h.seatId ≠ "") ∨ (h.status = .standing ∧ h.seatId = ""))
  | .setStatus id status => ∀ h ∈ holds, h.bookingId = id → BookingSm.Edge h.status status
  | .activeForSeat _ seatId => seatId ≠ ""
  | _ => True

instance (holds : List Hold) : ∀ o : RepoOp, Decidable (Allowed holds o)
  | .addHold h => inferInstanceAs (Decidable ((∀ x ∈ holds, x.bookingId ≠ h.bookingId) ∧ _ ∧ _))
  | .setStatus id status => inferInstanceAs (Decidable (∀ h ∈ holds, h.bookingId = id → BookingSm.Edge h.status status))
  | .activeForSeat _ seatId => inferInstanceAs (Decidable (seatId ≠ ""))
  | .get _ | .byReference _ | .activeForPassenger _ _ | .activeHolds _ | .byStatus _ _ | .expireDue _ =>
    inferInstanceAs (Decidable True)

/-- Every operation of the block is allowed where it stands. -/
def OpsAllowed : List (RepoOp × Scan) → World → Prop
  | [], _ => True
  | (o, _) :: rest, w => Allowed w.holds o ∧ OpsAllowed rest (memoryOp o w).2

def BlocksAllowed : List Block → World → Prop
  | [], _ => True
  | b :: rest, w => OpsAllowed b.ops { w with uow := w.uow.enter } ∧ BlocksAllowed rest (memoryBlock b w).2

instance : ∀ (os : List (RepoOp × Scan)) (w : World), Decidable (OpsAllowed os w)
  | [], _ => inferInstanceAs (Decidable True)
  | (o, _) :: rest, w =>
    have := instDecidableOpsAllowed rest (memoryOp o w).2
    inferInstanceAs (Decidable (Allowed w.holds o ∧ OpsAllowed rest (memoryOp o w).2))

instance : ∀ (bs : List Block) (w : World), Decidable (BlocksAllowed bs w)
  | [], _ => inferInstanceAs (Decidable True)
  | b :: rest, w =>
    have := instDecidableBlocksAllowed rest (memoryBlock b w).2
    inferInstanceAs (Decidable
      (OpsAllowed b.ops { w with uow := w.uow.enter } ∧ BlocksAllowed rest (memoryBlock b w).2))

/-! ## The simulation relation -/

/-- Rows as the repository writes them: a seat is NULL or a real text, and an active row has one. -/
def RowOk (row : BookingRow) : Prop :=
  row.seatId ≠ some "" ∧ (row.status.isActive = true → row.seatId ≠ none)

/-- **The simulation relation on contents.** The dictionary holds what the rows say, booking by booking, and the ids and
    references are distinct on both sides. -/
structure Mirror (holds : List Hold) (rows : List BookingRow) : Prop where
  keyedHolds : Keyed MemoryRepo.idOf holds
  keyedRows  : Keyed BookingRow.bookingId rows
  mem        : ∀ h, h ∈ holds ↔ ∃ r ∈ rows, toHold r = h
  refs       : ∀ a ∈ holds, ∀ b ∈ holds, a.reference = b.reference → a = b
  rowOk      : ∀ r ∈ rows, RowOk r

/-- **The simulation relation inside a block**: the session sees what the dictionary holds, the snapshot to fall back on
    is what is committed, and the session is alone. -/
structure InBlock (w : World) (s : Server) : Prop where
  sees  : Mirror w.holds (s.view 0)
  base  : ∃ holds, w.uow.snapshot = some (holds, w.trips) ∧ Mirror holds s.db.committed
  sound : Db.Sound bookingTable s.db
  alone : s.db.foreign 0 = []

namespace Mirror

variable {holds : List Hold} {rows : List BookingRow}

theorem empty : Mirror [] [] := ⟨keyed_nil, keyed_nil, by simp, by simp, by simp⟩

/-- `toHold` keeps rows with distinct ids apart. -/
theorem toHold_inj (hm : Mirror holds rows) {a b : BookingRow} (ha : a ∈ rows) (hb : b ∈ rows)
    (h : toHold a = toHold b) : a = b :=
  eq_of_key_eq hm.keyedRows ha hb (congrArg Hold.bookingId h)

/-- **Same selection.** Filtering the dictionary and filtering the rows give the same multiset. -/
theorem filter_perm (hm : Mirror holds rows) {p : Hold → Bool} {q : BookingRow → Bool}
    (hpq : ∀ r ∈ rows, p (toHold r) = q r) : (holds.filter p).Perm ((rows.filter q).map toHold) := by
  have hnodupHolds : (holds.filter p).Nodup := (List.Nodup.of_map _ hm.keyedHolds).filter _
  have hnodupRows : ((rows.filter q).map toHold).Nodup := by
    refine List.Nodup.map_on ?_ ((List.Nodup.of_map _ hm.keyedRows).filter _)
    intro a ha b hb hab
    exact hm.toHold_inj (List.mem_of_mem_filter ha) (List.mem_of_mem_filter hb) hab
  refine (List.perm_ext_iff_of_nodup hnodupHolds hnodupRows).mpr fun h => ?_
  simp only [List.mem_filter, List.mem_map, hm.mem]
  constructor
  · rintro ⟨⟨r, hr, rfl⟩, hp⟩
    exact ⟨r, ⟨hr, hpq r hr ▸ hp⟩, rfl⟩
  · rintro ⟨r, ⟨hr, hq⟩, rfl⟩
    exact ⟨⟨r, hr, rfl⟩, (hpq r hr).symm ▸ hq⟩

theorem perm (hm : Mirror holds rows) : holds.Perm (rows.map toHold) := by
  have h := hm.filter_perm (p := fun _ => true) (q := fun _ => true) fun _ _ => rfl
  rwa [List.filter_true, List.filter_true] at h

/-- **Same lookup.** -/
theorem lookup_eq (hm : Mirror holds rows) (id : String) :
    lookup MemoryRepo.idOf id holds = (lookup BookingRow.bookingId id rows).map toHold := by
  cases hr : lookup BookingRow.bookingId id rows with
  | some r =>
      have hmem : toHold r ∈ holds := (hm.mem _).mpr ⟨r, lookup_some_mem hr, rfl⟩
      obtain rfl : r.bookingId = id := lookup_some_key hr
      exact lookup_of_mem hm.keyedHolds hmem
  | none =>
      rw [Option.map_none, lookup_none_iff]
      intro h hh he
      obtain ⟨r, hr', rfl⟩ := (hm.mem h).mp hh
      exact lookup_none_iff.mp hr r hr' he

/-- Writing one booking on both sides. -/
theorem put {holds : List Hold} {rows rows' : List BookingRow} (hm : Mirror holds rows) {row : BookingRow}
    (hkeyed : Keyed BookingRow.bookingId rows')
    (hmem : ∀ x, x ∈ rows' ↔ x = row ∨ (x ∈ rows ∧ x.bookingId ≠ row.bookingId)) (hok : RowOk row)
    (hrefs : ∀ a ∈ holds, a.reference = row.reference → a.bookingId = row.bookingId) :
    Mirror (Rows.put MemoryRepo.idOf (toHold row) holds) rows' := by
  have hput : ∀ h, h ∈ Rows.put MemoryRepo.idOf (toHold row) holds ↔
      h = toHold row ∨ (h ∈ holds ∧ h.bookingId ≠ row.bookingId) := fun h => mem_put hm.keyedHolds
  refine ⟨put_keyed hm.keyedHolds _, hkeyed, ?_, ?_, ?_⟩
  · intro h
    rw [hput]
    constructor
    · rintro (rfl | ⟨hh, hne⟩)
      · exact ⟨row, (hmem row).mpr (Or.inl rfl), rfl⟩
      · obtain ⟨r, hr, rfl⟩ := (hm.mem h).mp hh
        exact ⟨r, (hmem r).mpr (Or.inr ⟨hr, hne⟩), rfl⟩
    · rintro ⟨r, hr, rfl⟩
      rcases (hmem r).mp hr with rfl | ⟨hr, hne⟩
      · exact Or.inl rfl
      · exact Or.inr ⟨(hm.mem _).mpr ⟨r, hr, rfl⟩, hne⟩
  · intro a ha b hb hab
    rcases (hput a).mp ha with rfl | ⟨ha, hane⟩
    · rcases (hput b).mp hb with rfl | ⟨hb, hbne⟩
      · rfl
      · exact absurd (hrefs b hb hab.symm) hbne
    · rcases (hput b).mp hb with rfl | ⟨hb, hbne⟩
      · exact absurd (hrefs a ha hab) hane
      · exact hm.refs a ha b hb hab
  · intro r hr
    rcases (hmem r).mp hr with rfl | ⟨hr, -⟩
    · exact hok
    · exact hm.rowOk r hr

end Mirror

/-! ## Statements of the lone session -/

section Statements

variable (scan : Scan) (s : Server)

theorem run_select (f : Filter) : (SqlRepo.select f).run (alone scan) s =
    (.ok (scan.order ((s.view 0).filter f.holds)), s) := Prog.run_call _ _ _

theorem run_selectById (id : String) : (SqlRepo.selectById id).run (alone scan) s =
    (.ok (lookup BookingRow.bookingId id (s.view 0)), s) := Prog.run_call _ _ _

theorem run_selectHolds (f : Filter) : (SqlRepo.selectHolds f).run (alone scan) s =
    (.ok ((scan.order ((s.view 0).filter f.holds)).map toHold), s) := by
  simp only [SqlRepo.selectHolds, Prog.bind_eq, Prog.run_bind, run_select, Prog.pure_eq, Prog.run_ret]

end Statements

/-- The session's writes leave the committed rows, the locks and the soundness as `InBlock` wants them. -/
structure Rewrote (s s' : Server) : Prop where
  committed : s'.db.committed = s.db.committed
  sound     : Db.Sound bookingTable s'.db
  alone     : s'.db.foreign 0 = []

theorem rewrote_of_write {s : Server} {db : Db BookingRow} {row : BookingRow} (hs : Db.Sound bookingTable s.db)
    (halone : s.db.foreign 0 = []) (h : s.db.write bookingTable 0 row = .done db) :
    Rewrote s { s with db := db } where
  committed := Db.committed_write h
  sound := hs.write h
  alone := by
    refine List.eq_nil_iff_forall_not_mem.mpr fun x hx => ?_
    have := (Db.foreign_write h).mp hx
    rw [halone] at this
    cases this

/-- A status update of a visible row that clashes with nothing goes through. -/
theorem run_updateStatus {s : Server} (scan : Scan) (hs : Db.Sound bookingTable s.db)
    (halone : s.db.foreign 0 = []) {row : BookingRow} {status : BookingStatus} (hrow : row ∈ s.view 0)
    (hfree : ∀ v ∈ s.view 0, v.bookingId ≠ row.bookingId → rowsClash { row with status := status } v = false) :
    ∃ s', (SqlRepo.updateStatus row.bookingId status).run (alone scan) s = (.ok (), s') ∧
      Rewrote s s' ∧ ∀ x, x ∈ s'.view 0 ↔
        x = { row with status := status } ∨ (x ∈ s.view 0 ∧ x.bookingId ≠ row.bookingId) := by
  obtain ⟨db, hdb⟩ := Db.write_alone_done (S := bookingTable) (r := { row with status := status }) halone hfree
  have hlook : lookup bookingTable.key row.bookingId (s.view 0) = some row :=
    lookup_of_mem (hs.view_keyed 0) hrow
  refine ⟨{ s with db := db }, ?_, rewrote_of_write hs halone hdb, fun x => hs.mem_view_write hdb⟩
  refine (Prog.run_call _ _ _).trans ?_
  simp only [alone, Server.exec, hlook, hdb, Server.wrote, Option.getD_some]

/-! ## Each operation agrees -/

theorem seat_eq {r : BookingRow} {seatId : String} (hseat : seatId ≠ "") :
    (toHold r).seatId = seatId ↔ r.seatId = some seatId := by
  unfold toHold
  dsimp only
  cases hs : r.seatId with
  | none => simpa using Ne.symm hseat
  | some x => simp

/-- Permuted lists of one repeated element start alike. -/
theorem head?_eq_of_perm {α : Type} {l l' : List α} (hp : l.Perm l') (hsame : ∀ a ∈ l, ∀ b ∈ l, a = b) :
    l.head? = l'.head? := by
  cases l with
  | nil => rw [hp.nil_eq]
  | cons a as =>
      cases l' with
      | nil => exact absurd hp.symm.nil_eq (by simp)
      | cons b bs =>
          have hb : b ∈ a :: as := hp.symm.subset (by simp)
          rw [List.head?_cons, List.head?_cons, hsame a (by simp) b hb]

namespace InBlock

variable {w : World} {s : Server} (scan : Scan)

/-- A writing operation: the session keeps its frame, the dictionary its snapshot. -/
theorem write (h : InBlock w s) {s' : Server} {holds : List Hold} (hr : Rewrote s s')
    (hm : Mirror holds (s'.view 0)) : InBlock (w.withHolds holds) s' := by
  obtain ⟨base, hsnap, hbase⟩ := h.base
  refine ⟨hm, ⟨base, hsnap, ?_⟩, hr.sound, hr.alone⟩
  rw [hr.committed]
  exact hbase

/-- Reads of several rows. -/
theorem select (h : InBlock w s) {p : Hold → Bool} (f : Filter) (hpf : ∀ r ∈ s.view 0, p (toHold r) = f.holds r) :
    Agrees (.records (w.holds.filter p))
      (.records ((scan.order ((s.view 0).filter f.holds)).map toHold)) :=
  (h.sees.filter_perm hpf).trans ((scan.perm _).map toHold).symm

/-- `by_reference`: at most one booking has the reference, so the server's order does not matter. -/
theorem byReference (h : InBlock w s) (reference : String) :
    MemoryRepo.byReference w.holds reference =
      (scan.order ((s.view 0).filter (Filter.byReference reference).holds)).head?.map toHold := by
  have hperm : (w.holds.filter fun x => x.reference = reference).Perm
      ((scan.order ((s.view 0).filter (Filter.byReference reference).holds)).map toHold) :=
    (h.sees.filter_perm fun r _ => rfl).trans ((scan.perm _).map toHold).symm
  rw [← List.head?_map, MemoryRepo.byReference, ← List.head?_filter]
  refine head?_eq_of_perm hperm fun a ha b hb => ?_
  simp only [List.mem_filter, decide_eq_true_eq] at ha hb
  exact h.sees.refs a ha.1 b hb.1 (ha.2.trans hb.2.symm)

/-- The constraint refuses a row exactly when the dictionary's scan finds an overlap. -/
theorem clash_iff (h : InBlock w s) {hold : Hold} (ha : Allowed w.holds (.addHold hold)) :
    (∃ v ∈ s.view 0, v.bookingId ≠ hold.bookingId ∧ rowsClash (toRow hold) v = true) ↔
      MemoryRepo.overlapping w.holds hold ≠ none := by
  have hexists : MemoryRepo.overlapping w.holds hold ≠ none ↔
      ∃ e ∈ MemoryRepo.activeForSeat w.holds hold.tripId hold.seatId,
        e.bookingId ≠ hold.bookingId ∧ e.leg.overlaps hold.leg = true := by
    rw [MemoryRepo.overlapping, Ne, List.find?_eq_none]
    simp
  rw [hexists]
  constructor
  · rintro ⟨v, hv, hne, hclash⟩
    obtain ⟨-, hva, htrip, hseat, hsame, hover⟩ := rowsClash_iff.mp hclash
    have hempty : hold.seatId ≠ "" := fun he => hseat (by simp [toRow, he])
    refine ⟨toHold v, MemoryRepo.mem_activeForSeat.mpr ⟨(h.sees.mem _).mpr ⟨v, hv, rfl⟩, htrip.symm, ?_, hva⟩,
      hne, ?_⟩
    · rw [seat_eq hempty, ← hsame]
      simp [toRow, hempty]
    · rw [Leg.overlaps_comm]
      exact hover
  · rintro ⟨e, he, hne, hover⟩
    obtain ⟨hmem, htrip, hseat, hactive⟩ := MemoryRepo.mem_activeForSeat.mp he
    obtain ⟨v, hv, rfl⟩ := (h.sees.mem e).mp hmem
    obtain ⟨hnotEmpty, hnotNull⟩ := h.sees.rowOk v hv
    -- an active row has a real seat, so the new booking has one, and is active
    have hsome : v.seatId = some hold.seatId := by
      cases hs : v.seatId with
      | none => exact absurd hs (hnotNull hactive)
      | some x =>
          have hx : x = hold.seatId := by rw [← hseat, toHold, hs]; rfl
          rw [hx]
    have hempty : hold.seatId ≠ "" := fun he => hnotEmpty (by rw [hsome, he])
    have hstatus : hold.status.isActive = true := by
      rcases ha.2.2 with ⟨hs, -⟩ | ⟨-, hs⟩
      · exact hs
      · exact absurd hs hempty
    have hrow : (toRow hold).seatId = some hold.seatId := by simp [toRow, hempty]
    refine ⟨v, hv, hne, rowsClash_iff.mpr ⟨hstatus, hactive, htrip.symm, ?_, ?_, ?_⟩⟩
    · rw [hrow]
      simp
    · rw [hrow, hsome]
    · rw [Leg.overlaps_comm]
      exact hover

/-- What one operation must do: the two answers agree, and the relation holds again afterwards. -/
def StepAgrees (w : World) (s : Server) (scan : Scan) (o : RepoOp) : Prop :=
  Agrees (memoryOp o w).1 (sqlOp o scan s).1 ∧ InBlock (memoryOp o w).2 (sqlOp o scan s).2

/-! ### Each repository operation -/

theorem addHold_agrees (h : InBlock w s) {hold : Hold} (ha : Allowed w.holds (.addHold hold)) :
    StepAgrees w s scan (.addHold hold) := by
  have hfresh : ¬ (toRow hold).bookingId ∈ (s.view 0).map bookingTable.key := by
    intro hmem
    obtain ⟨v, hv, hid⟩ := List.mem_map.mp hmem
    exact ha.1 (toHold v) ((h.sees.mem _).mpr ⟨v, hv, rfl⟩) hid
  have hinsert : (SqlRepo.insert (toRow hold)).run (SlrBooking.alone scan) s =
      (s.wrote (s.db.write bookingTable 0 (toRow hold))).getD (.error (.integrityError "lock wait"), s) := by
    refine (Prog.run_call _ _ _).trans ?_
    simp only [SlrBooking.alone, Server.exec, if_neg hfresh]
  have hclash := h.clash_iff ha
  -- Python's overlap test and the EXCLUDE constraint see the same clash
  cases hover : MemoryRepo.overlapping w.holds hold with
  | none =>
      have hfree : ∀ v ∈ s.view 0, v.bookingId ≠ hold.bookingId → rowsClash (toRow hold) v = false := by
        intro v hv hne
        by_contra hc
        exact (hclash.mp ⟨v, hv, hne, by simpa using hc⟩) hover
      obtain ⟨db, hdb⟩ := Db.write_alone_done (S := bookingTable) (r := toRow hold) h.alone hfree
      have hmem : memoryOp (.addHold hold) w = (.done, w.withHolds (put MemoryRepo.idOf hold w.holds)) := by
        simp only [memoryOp, World.exec, MemoryRepo.addHold, hover, observe, observed]
      have hsql : sqlOp (.addHold hold) scan s = (.done, { s with db := db }) := by
        simp only [sqlOp, SqlRepo.method, SqlRepo.addHold, Prog.tryCatch_eq, Prog.run_rescue, hinsert, hdb,
          Server.wrote, Option.getD_some, observe, observed]
      have hr := rewrote_of_write h.sound h.alone hdb
      unfold StepAgrees
      rw [hmem, hsql]
      refine ⟨rfl, h.write hr ?_⟩
      have hput := @Mirror.put _ _ _ h.sees (toRow hold) (hr.sound.view_keyed 0)
        (fun x => h.sound.mem_view_write hdb) ?_ (fun a ham har => absurd har (ha.2.1 a ham))
      · rwa [toHold_toRow] at hput
      · -- a row without a seat has NULL for it, never the empty text
        refine ⟨?_, fun hactive => ?_⟩
        · unfold toRow
          dsimp only
          split
          · simp
          · rename_i hne
            exact fun he => hne (Option.some.inj he)
        · rcases ha.2.2 with ⟨-, hs⟩ | ⟨hs, -⟩
          · simp [toRow, hs]
          · change hold.status.isActive = true at hactive
            rw [hs] at hactive
            cases hactive
  | some existing =>
      obtain ⟨v, hv, hne, hc⟩ := hclash.mpr (by rw [hover]; simp)
      have hrefused : s.db.write bookingTable 0 (toRow hold) = .refused := by
        rw [Db.write_alone h.alone, if_neg]
        intro hempty
        have hmem : v ∈ s.db.rivals bookingTable 0 (toRow hold) := by
          simp only [Db.rivals, List.mem_filter, Bool.and_eq_true, decide_eq_true_eq]
          exact ⟨hv, hne, hc⟩
        rw [List.isEmpty_iff.mp hempty] at hmem
        cases hmem
      have hmem : memoryOp (.addHold hold) w = (.raised (.domain .overlapError), w) := by
        simp only [memoryOp, World.exec, MemoryRepo.addHold, hover, observe, observed, Err.class]
      have hsql : sqlOp (.addHold hold) scan s = (.raised (.domain .overlapError), s) := by
        simp only [sqlOp, SqlRepo.method, SqlRepo.addHold, Prog.tryCatch_eq, Prog.run_rescue, hinsert, hrefused,
          Server.wrote, Option.getD_some, if_true, Prog.throw_eq, Prog.run_raise, observe, observed, Err.class]
      unfold StepAgrees
      rw [hmem, hsql]
      exact ⟨rfl, h⟩

theorem get_agrees (h : InBlock w s) (id : String) : StepAgrees w s scan (.get id) := by
  have hlook := h.sees.lookup_eq id
  unfold StepAgrees
  cases hr : lookup BookingRow.bookingId id (s.view 0) with
  | none =>
      rw [hr, Option.map_none] at hlook
      have hmem : memoryOp (.get id) w = (.raised .keyError, w) := by
        simp only [memoryOp, World.exec, MemoryRepo.get, hlook, observe, observed, Err.class]
      have hsql : sqlOp (.get id) scan s = (.raised .keyError, s) := by
        simp only [sqlOp, SqlRepo.method, SqlRepo.get, Prog.bind_eq, Prog.run_bind, run_selectById, hr,
          Prog.throw_eq, Prog.run_raise, observe, observed, Err.class]
      rw [hmem, hsql]
      exact ⟨rfl, h⟩
  | some row =>
      rw [hr, Option.map_some] at hlook
      have hmem : memoryOp (.get id) w = (.record (toHold row), w) := by
        simp only [memoryOp, World.exec, MemoryRepo.get, hlook, observe, observed]
      have hsql : sqlOp (.get id) scan s = (.record (toHold row), s) := by
        simp only [sqlOp, SqlRepo.method, SqlRepo.get, Prog.bind_eq, Prog.run_bind, run_selectById, hr,
          Prog.pure_eq, Prog.run_ret, observe, observed]
      rw [hmem, hsql]
      exact ⟨rfl, h⟩

/-- A status change along the machine never meets the constraint: it activates nothing. -/
theorem free_of_edge (h : InBlock w s) {row : BookingRow} {status : BookingStatus} (hrow : row ∈ s.view 0)
    (hedge : BookingSm.Edge row.status status) :
    ∀ v ∈ s.view 0, v.bookingId ≠ row.bookingId → rowsClash { row with status := status } v = false := by
  intro v hv hne
  by_contra hc
  obtain ⟨hactive, hrest⟩ := rowsClash_iff.mp (by simpa using hc)
  have hclash : rowsClash row v = true := rowsClash_iff.mpr ⟨BookingSm.active_of_edge hedge hactive, hrest⟩
  have hapart : rowsClash row v = false := h.sound.apart 0 row hrow v hv (Ne.symm hne)
  rw [hclash] at hapart
  cases hapart

theorem setStatus_agrees (h : InBlock w s) {id : String} {status : BookingStatus}
    (ha : Allowed w.holds (.setStatus id status)) : StepAgrees w s scan (.setStatus id status) := by
  have hlook := h.sees.lookup_eq id
  unfold StepAgrees
  cases hr : lookup BookingRow.bookingId id (s.view 0) with
  | none =>
      rw [hr, Option.map_none] at hlook
      have hmem : memoryOp (.setStatus id status) w = (.raised .keyError, w) := by
        simp only [memoryOp, World.exec, MemoryRepo.setStatus, hlook, observe, observed, Err.class]
      have hsql : sqlOp (.setStatus id status) scan s = (.raised .keyError, s) := by
        simp only [sqlOp, SqlRepo.method, SqlRepo.setStatus, Prog.bind_eq, Prog.run_bind, run_selectById, hr,
          Prog.throw_eq, Prog.run_raise, observe, observed, Err.class]
      rw [hmem, hsql]
      exact ⟨rfl, h⟩
  | some row =>
      have hrow : row ∈ s.view 0 := lookup_some_mem hr
      obtain rfl : row.bookingId = id := lookup_some_key hr
      have hhold : toHold row ∈ w.holds := (h.sees.mem _).mpr ⟨row, hrow, rfl⟩
      -- the edge keeps the constraint satisfied, so the UPDATE goes through
      have hedge : BookingSm.Edge row.status status := ha (toHold row) hhold rfl
      obtain ⟨s', hrun, hrewrote, hview⟩ :=
        run_updateStatus scan h.sound h.alone hrow (h.free_of_edge hrow hedge)
      have hmem : memoryOp (.setStatus row.bookingId status) w =
          (.record (toHold { row with status := status }),
            w.withHolds (put MemoryRepo.idOf (toHold { row with status := status }) w.holds)) := by
        rw [hr, Option.map_some] at hlook
        simp only [memoryOp, World.exec, MemoryRepo.setStatus_of_lookup hlook, observe, observed, toHold_status]
      have hsql : sqlOp (.setStatus row.bookingId status) scan s =
          (.record (toHold { row with status := status }), s') := by
        simp only [sqlOp, SqlRepo.method, SqlRepo.setStatus, Prog.bind_eq, Prog.run_bind, run_selectById, hr, hrun,
          Prog.pure_eq, Prog.run_ret, observe, observed]
      rw [hmem, hsql]
      refine ⟨rfl, h.write hrewrote (h.sees.put (hrewrote.sound.view_keyed 0) hview ?_ ?_)⟩
      · obtain ⟨hreal, hseated⟩ := h.sees.rowOk row hrow
        exact ⟨hreal, fun hactive => hseated (BookingSm.active_of_edge hedge hactive)⟩
      · intro a haw hreference
        exact congrArg Hold.bookingId (h.sees.refs a haw (toHold row) hhold hreference)

/-! ### The sweep -/

end InBlock

/-- The row after the sweep took it. -/
def expiredRow (row : BookingRow) : BookingRow := { row with status := .expired }

theorem expiredRow_no_clash (row v : BookingRow) : rowsClash (expiredRow row) v = false := rfl

/-- **What the sweep's updates do**, row after row: the listed rows expire, the others stay. -/
theorem run_expireRows (scan : Scan) : ∀ (rows : List BookingRow) {s : Server}, Db.Sound bookingTable s.db →
    s.db.foreign 0 = [] → (∀ r ∈ rows, r ∈ s.view 0) → Keyed BookingRow.bookingId rows →
    ∃ s', (SqlRepo.expireRows rows).run (alone scan) s = (.ok (rows.map fun r => toHold (expiredRow r)), s') ∧
      Rewrote s s' ∧ ∀ x, x ∈ s'.view 0 ↔
        (∃ r ∈ rows, expiredRow r = x) ∨ (x ∈ s.view 0 ∧ x.bookingId ∉ rows.map BookingRow.bookingId)
  | [], s, hs, halone, _, _ => ⟨s, rfl, ⟨rfl, hs, halone⟩, by simp⟩
  | row :: rest, s, hs, halone, hrows, hkeyed => by
      obtain ⟨hfresh, hkeyed⟩ := List.nodup_cons.mp hkeyed
      obtain ⟨s₁, hrun, hrewrote, hview⟩ := @run_updateStatus s scan hs halone row .expired
        (hrows row (by simp)) fun v _ _ => expiredRow_no_clash row v
      -- the rows still to come are other rows, so the update left them visible
      have hrest : ∀ r ∈ rest, r ∈ s₁.view 0 := by
        intro r hr
        refine (hview r).mpr (Or.inr ⟨hrows r (List.mem_cons_of_mem _ hr), fun he => hfresh ?_⟩)
        rw [← he]
        exact List.mem_map_of_mem hr
      obtain ⟨s', hrun', hrewrote', hview'⟩ := run_expireRows scan rest hrewrote.sound hrewrote.alone hrest hkeyed
      refine ⟨s', ?_, ⟨hrewrote'.committed.trans hrewrote.committed, hrewrote'.sound, hrewrote'.alone⟩, ?_⟩
      · simp only [SqlRepo.expireRows, Prog.bind_eq, Prog.run_bind, hrun, hrun', Prog.pure_eq, Prog.run_ret]
        rfl
      · intro x
        have hview₁ : x ∈ s₁.view 0 ↔ x = expiredRow row ∨ (x ∈ s.view 0 ∧ x.bookingId ≠ row.bookingId) := hview x
        rw [hview', hview₁]
        simp only [List.map_cons, List.mem_cons, not_or]
        constructor
        · rintro (⟨r, hr, rfl⟩ | ⟨rfl | ⟨hx, hne⟩, hno⟩)
          · exact Or.inl ⟨r, Or.inr hr, rfl⟩
          · exact Or.inl ⟨row, Or.inl rfl, rfl⟩
          · exact Or.inr ⟨hx, hne, hno⟩
        · rintro (⟨r, rfl | hr, rfl⟩ | ⟨hx, hne, hno⟩)
          · exact Or.inr ⟨Or.inl rfl, hfresh⟩
          · exact Or.inl ⟨r, hr, rfl⟩
          · exact Or.inr ⟨Or.inr ⟨hx, hne⟩, hno⟩

theorem overdue_toHold (now : Int) (r : BookingRow) :
    MemoryRepo.overdue now (toHold r) = (Filter.overdue now).holds r := rfl

theorem retire_toHold (now : Int) (r : BookingRow) : MemoryRepo.retire now (toHold r) =
    if (Filter.overdue now).holds r then toHold (expiredRow r) else toHold r := by
  unfold MemoryRepo.retire
  rw [overdue_toHold]
  rfl

namespace InBlock

variable {w : World} {s : Server} (scan : Scan)

theorem expireDue_agrees (h : InBlock w s) (now : Int) : StepAgrees w s scan (.expireDue now) := by
  let rows := scan.order ((s.view 0).filter (Filter.overdue now).holds)
  have hmemRows : ∀ r, r ∈ rows ↔ r ∈ s.view 0 ∧ (Filter.overdue now).holds r = true := fun r => by
    rw [(scan.perm _).mem_iff, List.mem_filter]
  have hkeyed : Keyed BookingRow.bookingId rows :=
    (((scan.perm _).map _).nodup_iff).mpr (h.sees.keyedRows.sublist (List.filter_sublist.map _))
  obtain ⟨s', hrun, hrewrote, hview⟩ := run_expireRows scan rows h.sound h.alone
    (fun r hr => ((hmemRows r).mp hr).1) hkeyed
  have hmem : memoryOp (.expireDue now) w = (.records (MemoryRepo.expireDue w.holds now).1,
      w.withHolds (MemoryRepo.expireDue w.holds now).2) := rfl
  have hsql : sqlOp (.expireDue now) scan s = (.records (rows.map fun r => toHold (expiredRow r)), s') := by
    have hselect := run_select scan s (.overdue now)
    simp only [sqlOp, SqlRepo.method, SqlRepo.expireDue, Prog.bind_eq, Prog.run_bind, hselect]
    rw [hrun]
    rfl
  unfold StepAgrees
  rw [hmem, hsql]
  constructor
  · have hperm : (w.holds.filter (MemoryRepo.overdue now)).Perm (rows.map toHold) :=
      h.select scan (.overdue now) fun r _ => overdue_toHold now r
    have hanswer : (rows.map toHold).map (MemoryRepo.retire now) = rows.map fun r => toHold (expiredRow r) := by
      rw [List.map_map]
      refine List.map_congr_left fun r hr => ?_
      show MemoryRepo.retire now (toHold r) = _
      rw [retire_toHold, if_pos ((hmemRows r).mp hr).2]
    show ((w.holds.filter (MemoryRepo.overdue now)).map (MemoryRepo.retire now)).Perm _
    rw [← hanswer]
    exact hperm.map _
  · refine h.write hrewrote ⟨MemoryRepo.expireDue_keyed h.sees.keyedHolds now, hrewrote.sound.view_keyed 0, ?_, ?_, ?_⟩
    · intro x
      -- a row of the new view is the swept version of a row of the old one
      have hswept : ∀ y, (∃ r ∈ s.view 0, MemoryRepo.retire now (toHold r) = y) ↔
          ∃ r ∈ s'.view 0, toHold r = y := by
        intro y
        constructor
        · rintro ⟨r, hr, rfl⟩
          rw [retire_toHold]
          by_cases hdue : (Filter.overdue now).holds r = true
          · rw [if_pos hdue]
            exact ⟨expiredRow r, (hview _).mpr (Or.inl ⟨r, (hmemRows r).mpr ⟨hr, hdue⟩, rfl⟩), rfl⟩
          · rw [if_neg hdue]
            refine ⟨r, (hview _).mpr (Or.inr ⟨hr, fun hid => hdue ?_⟩), rfl⟩
            obtain ⟨r', hr', hsame⟩ := List.mem_map.mp hid
            have hr'' := (hmemRows r').mp hr'
            rw [← eq_of_key_eq h.sees.keyedRows hr''.1 hr hsame]
            exact hr''.2
        · rintro ⟨x, hx, rfl⟩
          rcases (hview x).mp hx with ⟨r, hr, rfl⟩ | ⟨hx, hno⟩
          · have hr' := (hmemRows r).mp hr
            refine ⟨r, hr'.1, ?_⟩
            rw [retire_toHold, if_pos hr'.2]
          · refine ⟨x, hx, ?_⟩
            rw [retire_toHold, if_neg]
            exact fun hdue => hno (List.mem_map_of_mem ((hmemRows x).mpr ⟨hx, hdue⟩))
      rw [← hswept]
      constructor
      · intro hx
        obtain ⟨y, hy, rfl⟩ := List.mem_map.mp hx
        obtain ⟨r, hr, rfl⟩ := (h.sees.mem y).mp hy
        exact ⟨r, hr, rfl⟩
      · rintro ⟨r, hr, rfl⟩
        exact List.mem_map_of_mem ((h.sees.mem _).mpr ⟨r, hr, rfl⟩)
    · intro a ha b hb hab
      obtain ⟨a', ha', rfl⟩ := List.mem_map.mp ha
      obtain ⟨b', hb', rfl⟩ := List.mem_map.mp hb
      have hreference : ∀ x, (MemoryRepo.retire now x).reference = x.reference := by
        intro x
        rcases MemoryRepo.retire_cases now x with hx | ⟨-, hx⟩ <;> rw [hx]
      rw [hreference, hreference] at hab
      rw [h.sees.refs a' ha' b' hb' hab]
    · intro x hx
      rcases (hview x).mp hx with ⟨r, hr, rfl⟩ | ⟨hx, -⟩
      · exact ⟨(h.sees.rowOk r ((hmemRows r).mp hr).1).1, fun hactive => absurd hactive Bool.false_ne_true⟩
      · exact h.sees.rowOk x hx

/-- Reads of several rows agree and leave both sides alone. -/
theorem reads_agree (h : InBlock w s) {o : RepoOp} {p : Hold → Bool} (f : Filter)
    (hmem : memoryOp o w = (.records (w.holds.filter p), w))
    (hsql : sqlOp o scan s = (.records ((scan.order ((s.view 0).filter f.holds)).map toHold), s))
    (hpf : ∀ r ∈ s.view 0, p (toHold r) = f.holds r) : StepAgrees w s scan o := by
  unfold StepAgrees
  rw [hmem, hsql]
  exact ⟨h.select scan f hpf, h⟩

/-- **Step lemma.** An allowed operation agrees and keeps the relation. -/
theorem step (h : InBlock w s) : ∀ {o : RepoOp}, Allowed w.holds o → StepAgrees w s scan o
  | .addHold _, ha => h.addHold_agrees scan ha
  | .get id, _ => h.get_agrees scan id
  | .setStatus _ _, ha => h.setStatus_agrees scan ha
  | .expireDue now, _ => h.expireDue_agrees scan now
  | .byReference reference, _ => by
      have hsql : sqlOp (.byReference reference) scan s =
          (.found ((scan.order ((s.view 0).filter (Filter.byReference reference).holds)).head?.map toHold), s) := by
        simp only [sqlOp, SqlRepo.method, SqlRepo.byReference, Prog.bind_eq, Prog.run_bind, run_select,
          Prog.pure_eq, Prog.run_ret, observe, observed]
      have hmem : memoryOp (.byReference reference) w = (.found (MemoryRepo.byReference w.holds reference), w) := rfl
      unfold StepAgrees
      rw [hmem, hsql]
      exact ⟨congrArg Answer.found (h.byReference scan reference), h⟩
  | .activeForSeat tripId seatId, ha => by
      refine h.reads_agree scan (.activeForSeat tripId seatId) rfl ?_ fun r _ => ?_
      · simp only [sqlOp, SqlRepo.method, run_selectHolds, observe, observed]
      · have hseat := seat_eq (r := r) ha
        simp only [Filter.holds, hseat]
        rfl
  | .activeForPassenger tripId passengerId, _ => by
      refine h.reads_agree scan (.activeForPassenger tripId passengerId) rfl ?_ fun r _ => rfl
      simp only [sqlOp, SqlRepo.method, run_selectHolds, observe, observed]
  | .activeHolds tripId, _ => by
      refine h.reads_agree scan (.activeOnTrip tripId) rfl ?_ fun r _ => rfl
      simp only [sqlOp, SqlRepo.method, run_selectHolds, observe, observed]
  | .byStatus tripId status, _ => by
      refine h.reads_agree scan (.inStatus tripId status) rfl ?_ fun r _ => rfl
      simp only [sqlOp, SqlRepo.method, run_selectHolds, observe, observed]

/-- The operations of a block, by induction. -/
theorem ops : ∀ {os : List (RepoOp × Scan)} {w : World} {s : Server}, InBlock w s → OpsAllowed os w →
    List.Forall₂ Agrees (memoryOps os w).1 (sqlOps os s).1 ∧ InBlock (memoryOps os w).2 (sqlOps os s).2
  | [], _, _, h, _ => ⟨List.Forall₂.nil, h⟩
  | (_, scan) :: _, _, _, h, ⟨ha, hrest⟩ =>
    have hstep := h.step scan ha
    have hops := ops hstep.2 hrest
    ⟨List.Forall₂.cons hstep.1 hops.1, hops.2⟩

end InBlock

/-! ## Blocks -/

/-- The simulation relation between blocks: the same contents on both sides, with nothing in doubt. -/
structure Between (w : World) (s : Server) : Prop where
  same  : Mirror w.holds s.db.committed
  sound : Db.Sound bookingTable s.db
  idle  : s.db.pending = []

theorem between_start (trips : List Trip) : Between (World.start trips) (Server.start trips) :=
  ⟨Mirror.empty, Db.sound_empty, rfl⟩

theorem Between.enter {w : World} {s : Server} (h : Between w s) : InBlock w.enter s := by
  have hown : s.db.own 0 = [] := by
    unfold Db.own
    rw [h.idle]
    rfl
  refine ⟨?_, ⟨w.holds, rfl, h.same⟩, h.sound, ?_⟩
  · show Mirror w.holds (overlay bookingTable.key s.db.committed (s.db.own 0))
    rw [hown]
    exact h.same
  · unfold Db.foreign
    rw [h.idle]
    rfl

/-- With nobody else in flight, ending transaction 0 leaves nothing in doubt. -/
theorem pending_drop_alone {s : Server} (halone : s.db.foreign 0 = []) :
    s.db.pending.filter (fun p => p.1 ≠ 0) = [] :=
  List.map_eq_nil_iff.mp halone

/-- **Block lemma.** Both sides answer alike and end alike. -/
theorem Between.block {w : World} {s : Server} (h : Between w s) {b : Block} (ha : OpsAllowed b.ops w.enter) :
    List.Forall₂ Agrees (memoryBlock b w).1 (sqlBlock b s).1 ∧ Between (memoryBlock b w).2 (sqlBlock b s).2 := by
  obtain ⟨hanswers, hin⟩ := InBlock.ops h.enter ha
  refine ⟨hanswers, ?_⟩
  have hnone := pending_drop_alone hin.alone
  cases hc : b.commits with
  | true =>
      have hsql : (sqlBlock b s).2.db = ((sqlOps b.ops s).2.db.commit bookingTable 0).rollback 0 := by
        simp only [sqlBlock, hc, if_true, Server.close]
      have hmem : (memoryBlock b w).2.holds = (memoryOps b.ops w.enter).2.holds := by
        simp only [memoryBlock, hc, if_true]
        rfl
      refine ⟨?_, ?_, ?_⟩
      · rw [hmem, hsql]
        exact hin.sees
      · rw [hsql]
        exact (hin.sound.commit 0).rollback 0
      · rw [hsql]
        show ((sqlOps b.ops s).2.db.pending.filter fun p => p.1 ≠ 0).filter (fun p => p.1 ≠ 0) = []
        rw [hnone]
        rfl
  | false =>
      -- the snapshot mirrors what was committed, which is what a rollback leaves
      obtain ⟨base, hsnapshot, hbase⟩ := hin.base
      have hsql : (sqlBlock b s).2.db = (sqlOps b.ops s).2.db.rollback 0 := by
        simp only [sqlBlock, hc, if_false, Server.close, Bool.false_eq_true]
      have hmem : (memoryBlock b w).2.holds = base := by
        simp only [memoryBlock, hc, if_false, Bool.false_eq_true, World.holds, MemoryUow.exit, MemoryUow.rollback]
        change (memoryOps b.ops { w with uow := w.uow.enter }).2.uow.snapshot = _ at hsnapshot
        rw [hsnapshot]
      refine ⟨?_, ?_, ?_⟩
      · rw [hmem, hsql]
        exact hbase
      · rw [hsql]
        exact hin.sound.rollback 0
      · rw [hsql]
        exact hnone

/-- What a caller observes of every block, and the contents each leaves. -/
def memoryBlocks : List Block → World → List (List Answer × List Hold)
  | [], _ => []
  | b :: rest, w => ((memoryBlock b w).1, (memoryBlock b w).2.holds) :: memoryBlocks rest (memoryBlock b w).2

def sqlBlocks : List Block → Server → List (List Answer × List Hold)
  | [], _ => []
  | b :: rest, s =>
    ((sqlBlock b s).1, (sqlBlock b s).2.db.committed.map toHold) :: sqlBlocks rest (sqlBlock b s).2

/-- Answer by answer the same, and the same bookings afterwards. -/
def SameBlock (m q : List Answer × List Hold) : Prop := List.Forall₂ Agrees m.1 q.1 ∧ m.2.Perm q.2

theorem Between.blocks : ∀ {bs : List Block} {w : World} {s : Server}, Between w s → BlocksAllowed bs w →
    List.Forall₂ SameBlock (memoryBlocks bs w) (sqlBlocks bs s)
  | [], _, _, _, _ => List.Forall₂.nil
  | _ :: _, _, _, h, ⟨ha, hrest⟩ =>
    have hblock := h.block ha
    List.Forall₂.cons ⟨hblock.1, hblock.2.same.perm⟩ (Between.blocks hblock.2 hrest)

/-! ## The refinement

Any list of blocks, from the empty stores: at every exit of a block the two sides have answered alike and hold the
same bookings. -/

/-- **The in-memory repository refines the Postgres one.** Over any sequence of blocks in which callers do
    what the use-cases do, both raise the same errors at the same operations, return the same records and
    hold the same bookings after every block, whatever order the server returns rows in. -/
theorem memory_refines_sql (trips : List Trip) (blocks : List Block)
    (hallowed : BlocksAllowed blocks (World.start trips)) :
    List.Forall₂ SameBlock (memoryBlocks blocks (World.start trips)) (sqlBlocks blocks (Server.start trips)) :=
  (between_start trips).blocks hallowed

/-- A held booking of the sample train's first seat. -/
def sampleHold (tag : String) (leg : Leg) (passengerId : String) : Hold :=
  { bookingId := "b" ++ tag
    reference := "SLR-" ++ tag
    tripId := "slow"
    seatId := "A1"
    leg := leg
    passengerId := passengerId
    passengerName := "Nimal"
    travelClass := .first
    status := .held
    fareCents := 10000
    heldUntil := 900
    createdAt := 0 }

/-- The server lists rows latest first. -/
def Scan.latestFirst : Scan := ⟨List.reverse, List.reverse_perm⟩

/-- A hold that is taken and a rival that is refused; a confirm that is abandoned; a cancel that frees the
    seat, a second hold of it, and the sweep. -/
def sampleBlocks : List Block :=
  [⟨[(.addHold (sampleHold "1" wholeLine "nic1"), .stored), (.addHold (sampleHold "2" firstHop "nic2"), .stored),
     (.byReference "SLR-1", .latestFirst), (.get "b2", .stored)], true⟩,
   ⟨[(.setStatus "b1" .confirmed, .stored), (.activeForSeat "slow" "A1", .latestFirst)], false⟩,
   ⟨[(.setStatus "b1" .cancelled, .stored), (.addHold (sampleHold "3" secondHop "nic3"), .stored),
     (.activeHolds "slow", .latestFirst), (.expireDue 900, .latestFirst), (.byStatus "slow" .expired, .stored)],
    true⟩]

theorem memory_refines_sql_sample : BlocksAllowed sampleBlocks (World.start sampleTrips) ∧
    List.Forall₂ SameBlock (memoryBlocks sampleBlocks (World.start sampleTrips))
      (sqlBlocks sampleBlocks (Server.start sampleTrips)) := by
  have hallowed : BlocksAllowed sampleBlocks (World.start sampleTrips) := by decide +kernel
  exact ⟨hallowed, memory_refines_sql sampleTrips sampleBlocks hallowed⟩

end SlrBooking
