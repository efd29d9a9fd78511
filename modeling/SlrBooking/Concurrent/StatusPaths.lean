import SlrBooking.Concurrent.Guards

/-!
# `Concurrent.StatusPaths` — committed status changes under any interleaving

The guard of a status change looks at a value read earlier; the UPDATE itself looks at nothing. So it matters what
other transactions commit in between. Where no booking is written and committed by another transaction between a
request's reading of it and its UPDATE, the committed row is still the one the use-case put through the machine
(`Guards`), and every booking moves along the edges: the row lock keeps what the UPDATE found until its commit
(`Db.Tracks`). The sweep of a request that selected a held booking before its confirmation was committed breaks
the condition, and the machine's law with it.

## Contents
- `Server.history`: the statuses of a booking, one for each commit that wrote it. `StatusPath`.
- `Traffic.overtaken`, `Unovertaken`: the race. `NoneOvertaken`: the condition on a run.
- `Orderly`: what the histories keep. `AsRead`: what the requests have read is still committed, or overtaken.
- `status_paths`: the run theorem. `paid_booking_expires`: the run that breaks the law.
-/

namespace SlrBooking

open Theory Rows

/-- The statuses of one booking, in the order the commits wrote them. -/
def Server.history (s : Server) (bookingId : String) : List BookingStatus :=
  ((s.journal.flatMap (·.2)).filter fun row => row.bookingId = bookingId).map (·.status)

def Server.committedStatus (s : Server) (bookingId : String) : Option BookingStatus :=
  (lookup BookingRow.bookingId bookingId s.db.committed).map (·.status)

/-- **The law for one booking**: its committed statuses follow the machine's edges, one after another, up to the one the
    table shows. -/
structure StatusPath (s : Server) (bookingId : String) : Prop where
  edges : (s.history bookingId).IsChain BookingSm.Edge
  last  : (s.history bookingId).getLast? = s.committedStatus bookingId

/-! ## The race

Read, then overtaken, then written: the record of a run are the readings that somebody else's commit has made stale. -/

namespace Traffic

/-- What a request has read in order to change a status. -/
def sight (th : Thread Stmts Err Unit) : Sight := Machine.know Sight.note {} th

/-- The bookings that request `u` has read so. -/
def readBy (c : State) (u : Nat) : List String :=
  (c.threads[u]?).elim [] fun th => (sight th).rows.map (·.bookingId)

/-- If `t` now commits: each other request with each booking it has read and `t` has written. -/
def overtaken (c : State) (t : Nat) : List (Nat × String) :=
  if c.next t = some Stmt.commit then
    ((List.range c.threads.length).filter fun u => u ≠ t).flatMap fun u =>
      ((readBy c u).filter fun id => id ∈ (c.shared.db.own t).map (·.bookingId)).map fun id => (u, id)
  else []

/-- One more step. -/
def noteOvertaken (stale : List (Nat × String)) (c : State) (t : Nat) : List (Nat × String) := stale ++ overtaken c t

/-- **The condition on one step.** If the step of `t` is a status update, nobody else has committed a write of that
    booking since `t` read it. -/
def Unovertaken (stale : List (Nat × String)) (c : State) (t : Nat) : Prop :=
  match c.next t with
  | some (Stmt.updateStatus bookingId _) => (t, bookingId) ∉ stale
  | _ => True

instance (stale : List (Nat × String)) (c : State) (t : Nat) : Decidable (Unovertaken stale c t) := by
  unfold Unovertaken
  split <;> infer_instance

/-- **The condition on a run**: between a request's reading of a booking, by its sweep or by id, and its status
    UPDATE, no other transaction commits a write of that booking. -/
abbrev NoneOvertaken (T : Traffic) (sched : List Nat) : Prop :=
  ObeysNoting T.machine.step noteOvertaken Unovertaken [] T.start sched

theorem mem_overtaken {c : State} {t u : Nat} {id : String} (hcommit : c.next t = some Stmt.commit) (hu : u ≠ t)
    (hread : id ∈ readBy c u) (hwritten : id ∈ (c.shared.db.own t).map (·.bookingId)) : (u, id) ∈ overtaken c t := by
  unfold overtaken
  rw [if_pos hcommit]
  have hlt : u < c.threads.length := by
    by_contra hge
    unfold readBy at hread
    rw [List.getElem?_eq_none (Nat.le_of_not_lt hge)] at hread
    exact List.not_mem_nil hread
  refine List.mem_flatMap.mpr ⟨u, List.mem_filter.mpr ⟨List.mem_range.mpr hlt, by simpa using hu⟩, ?_⟩
  exact List.mem_map.mpr ⟨id, List.mem_filter.mpr ⟨hread, by simpa using hwritten⟩, rfl⟩

end Traffic

/-! ## Histories -/

/-- One row becomes another along the machine. -/
def RowEdge (a b : BookingRow) : Prop := BookingSm.Edge a.status b.status

/-- **The invariant of the table**: it is sound, each version in doubt is one edge from the committed row, and every
    booking's history is a path of the machine. -/
structure Orderly (s : Server) : Prop where
  sound  : Db.Sound bookingTable s.db
  tracks : Db.Tracks bookingTable RowEdge s.db
  paths  : ∀ bookingId, StatusPath s bookingId

theorem orderly_start (trips : List Trip) : Orderly (Server.start trips) where
  sound := Db.sound_empty
  tracks := by
    intro p hp
    cases hp
  paths _ := ⟨List.isChain_nil, rfl⟩

namespace Orderly

variable {s : Server} {t : Nat}

/-- A write in doubt shows in no history. -/
theorem write (h : Orderly s) {row : BookingRow} {db : Db BookingRow}
    (hw : s.db.write bookingTable t row = .done db)
    (hedge : ∀ c, lookup BookingRow.bookingId row.bookingId s.db.committed = some c → RowEdge c row) :
    Orderly { s with db := db } where
  sound := h.sound.write hw
  tracks := h.tracks.write hw hedge
  paths id := by
    have hcommitted : db.committed = s.db.committed := Db.committed_write hw
    refine ⟨(h.paths id).edges, (h.paths id).last.trans ?_⟩
    unfold Server.committedStatus
    rw [hcommitted]

/-- A commit adds to a booking's history the status of its version in doubt, if it has one. -/
theorem history_commit (h : Orderly s) (id : String) (db : Db BookingRow) :
    Server.history { s with db := db, journal := s.journal ++ [(t, s.db.own t)] } id =
      s.history id ++ ((lookup BookingRow.bookingId id (s.db.own t)).map (·.status)).toList := by
  have hkeyed : Keyed BookingRow.bookingId (s.db.own t) := h.sound.own_keyed t
  unfold Server.history
  rw [List.flatMap_append, List.filter_append, List.map_append, List.flatMap_singleton, filter_key hkeyed,
    Option.toList_map]

/-- **A commit moves every booking along the machine**, or leaves it where it is. -/
theorem commit (h : Orderly s) : Orderly
    { s with db := s.db.commit bookingTable t, journal := s.journal ++ [(t, s.db.own t)] } where
  sound := h.sound.commit t
  tracks := h.tracks.commit h.sound t
  paths id := by
    have hlook : lookup BookingRow.bookingId id (s.db.commit bookingTable t).committed =
        (lookup BookingRow.bookingId id (s.db.own t)).or (lookup BookingRow.bookingId id s.db.committed) :=
      h.sound.lookup_view id
    cases hown : lookup BookingRow.bookingId id (s.db.own t) with
    | none =>
        have hsame : Server.history { s with
            db := s.db.commit bookingTable t, journal := s.journal ++ [(t, s.db.own t)] } id = s.history id := by
          rw [h.history_commit, hown]
          exact List.append_nil _
        rw [hown, Option.none_or] at hlook
        refine ⟨hsame ▸ (h.paths id).edges, ?_⟩
        rw [hsame, (h.paths id).last]
        unfold Server.committedStatus
        rw [hlook]
    | some row =>
        -- the history grows by one status, and `tracks` has the edge to it
        have hlonger : Server.history { s with
            db := s.db.commit bookingTable t, journal := s.journal ++ [(t, s.db.own t)] } id =
            s.history id ++ [row.status] := by
          rw [h.history_commit, hown]
          rfl
        have hedge : ∀ a ∈ (s.history id).getLast?, BookingSm.Edge a row.status := by
          intro a ha
          rw [(h.paths id).last] at ha
          obtain ⟨c, hc, rfl⟩ := Option.map_eq_some_iff.mp ha
          refine h.tracks (t, row) (Db.mem_own.mp (lookup_some_mem hown)) c ?_
          rw [show bookingTable.key (t, row).2 = id from lookup_some_key hown]
          exact hc
        rw [hown, Option.some_or] at hlook
        constructor
        · rw [hlonger]
          refine List.isChain_append.mpr ⟨(h.paths id).edges, List.isChain_singleton _, ?_⟩
          intro a ha b hb
          obtain rfl : row.status = b := by simpa using hb
          exact hedge a ha
        · rw [hlonger, List.getLast?_concat]
          unfold Server.committedStatus
          rw [hlook]
          rfl

theorem close (h : Orderly s) (t : Nat) : Orderly (Server.close t s) where
  sound := h.sound.rollback t
  tracks := h.tracks.rollback t
  paths id := ⟨(h.paths id).edges, (h.paths id).last⟩

end Orderly

/-! ## What the requests have read -/

/-- The committed row of every booking a request has read is the one it read, unless the reading is stale. A row that
    is not there is one the request has itself expired before it read it. -/
structure AsRead (stale : List (Nat × String)) (c : Traffic.State) : Prop where
  guarded  : Machine.Follows (fun _ => Guard) Sight.note {} (fun _ _ _ => True) c
  expiries : ∀ (t : Nat) th, c.threads[t]? = some th → (Traffic.sight th).wrote = false →
    ∀ row ∈ c.shared.db.own t, row.status = .expired
  due      : ∀ (t : Nat) th, c.threads[t]? = some th → ∀ row ∈ (Traffic.sight th).due, row.status = .held
  found    : ∀ (t : Nat) th, c.threads[t]? = some th → ∀ id row, (id, row) ∈ (Traffic.sight th).found →
    row.bookingId = id
  kept     : ∀ (t : Nat) th, c.threads[t]? = some th → ∀ row ∈ (Traffic.sight th).rows,
    (t, row.bookingId) ∉ stale → row.status = .expired ∨ row ∈ c.shared.db.committed

/-- What a statement adds to the sight of its transaction: rows of the transaction's view. -/
structure SeenNow (s : Server) (t : Nat) (l l' : Sight) : Prop where
  due   : ∀ row ∈ l'.due, row ∈ l.due ∨ row ∈ s.view t ∧ row.status = .held
  found : ∀ id row, (id, row) ∈ l'.found → (id, row) ∈ l.found ∨ row ∈ s.view t ∧ row.bookingId = id

theorem SeenNow.rows {s : Server} {t : Nat} {l l' : Sight} (h : SeenNow s t l l') {row : BookingRow}
    (hrow : row ∈ l'.rows) : row ∈ l.rows ∨ row ∈ s.view t := by
  rcases List.mem_append.mp hrow with hrow | hrow
  · exact (h.due row hrow).imp (List.mem_append_left _) And.left
  · obtain ⟨⟨id, _⟩, hmem, rfl⟩ := List.mem_map.mp hrow
    rcases h.found id _ hmem with hold | ⟨hnow, -⟩
    · exact Or.inl (List.mem_append_right _ (List.mem_map.mpr ⟨_, hold, rfl⟩))
    · exact Or.inr hnow

section Steps

variable {scan : Scan} {gateway : Gateway} {s s' : Server} {t : Nat} {l : Sight}

/-! ### What a statement teaches -/

theorem SeenNow.same {l' : Sight} (hdue : l'.due = l.due) (hfound : l'.found = l.found) : SeenNow s t l l' :=
  ⟨fun _ h => Or.inl (hdue ▸ h), fun _ _ h => Or.inl (hfound ▸ h)⟩

/-- **What a statement teaches** its transaction. -/
theorem seen_effect {e : Event Stmts Err} (h : Server.Effect scan gateway t s e s') :
    SeenNow s t l (l.note e.op e.ans) := by
  cases h with
  | @selectById id =>
      cases hrow : lookup BookingRow.bookingId id (s.view t) with
      | none => exact SeenNow.same rfl rfl
      | some row =>
          refine ⟨fun _ h => Or.inl h, fun id' row' hmem => ?_⟩
          rcases List.mem_append.mp hmem with hmem | hmem
          · exact Or.inl hmem
          · obtain ⟨rfl, rfl⟩ := Prod.mk.inj (List.mem_singleton.mp hmem)
            exact Or.inr ⟨lookup_some_mem hrow, lookup_some_key hrow⟩
  | @select f =>
      cases f with
      | overdue now =>
          refine ⟨fun row hmem => ?_, fun _ _ h => Or.inl h⟩
          rcases List.mem_append.mp hmem with hmem | hmem
          · exact Or.inl hmem
          · obtain ⟨hview, hholds⟩ := List.mem_filter.mp ((scan.perm _).mem_iff.mp hmem)
            simp only [Filter.holds, Bool.and_eq_true, decide_eq_true_eq] at hholds
            exact Or.inr ⟨hview, hholds.1⟩
      | _ => exact SeenNow.same rfl rfl
  | committed => exact ⟨fun _ hmem => absurd hmem List.not_mem_nil, fun _ _ hmem => absurd hmem List.not_mem_nil⟩
  | @missing id status hnone =>
      dsimp only [Sight.note]
      split <;> exact SeenNow.same rfl rfl
  | @updated id status row db hrow hw =>
      dsimp only [Sight.note]
      split <;> exact SeenNow.same rfl rfl
  | @aside o a ho =>
      cases o with
      | selectTrip | selectTrips | publish | notify => exact SeenNow.same rfl rfl
      | _ => exact ho.elim
  | _ => exact SeenNow.same rfl rfl

/-- As long as a transaction writes expiries, these are all it has in doubt. -/
theorem expiries_effect {e : Event Stmts Err} (h : Server.Effect scan gateway t s e s')
    (hexpiries : l.wrote = false → ∀ row ∈ s.db.own t, row.status = .expired)
    (hwrote : (l.note e.op e.ans).wrote = false) : ∀ row ∈ s'.db.own t, row.status = .expired := by
  cases h with
  | inserted => cases hwrote
  | @updated id status row db hrow hw =>
      by_cases hstatus : status = .expired
      · subst hstatus
        intro x hx
        rcases (Db.own_write hw).mp hx with rfl | ⟨hx, -⟩
        · rfl
        · exact hexpiries hwrote x hx
      · dsimp only [Sight.note] at hwrote
        rw [if_neg hstatus] at hwrote
        cases hwrote
  | committed =>
      intro x hx
      rw [show (s.db.commit bookingTable t).own t = [] from Db.own_drop_self] at hx
      exact absurd hx List.not_mem_nil
  | @missing id status hnone =>
      refine hexpiries ?_
      dsimp only [Sight.note] at hwrote
      split at hwrote
      · exact hwrote
      · cases hwrote
  | @selectById id =>
      refine hexpiries ?_
      cases hrow : lookup BookingRow.bookingId id (s.view t) with
      | none =>
          rw [hrow] at hwrote
          exact hwrote
      | some row =>
          rw [hrow] at hwrote
          exact hwrote
  | @select f => exact hexpiries (by cases f <;> exact hwrote)
  | @aside o a ho =>
      refine hexpiries ?_
      cases o with
      | selectTrip | selectTrips | publish | notify => exact hwrote
      | _ => exact ho.elim
  | _ => exact hexpiries hwrote

end Steps

variable {stale : List (Nat × String)} {c : Traffic.State} {t : Nat}

/-! ### The readings in a run

A row that was read stays the committed one until somebody else commits it, and then the reading is noted as
overtaken. -/

theorem asRead_start (T : Traffic) : AsRead [] T.start := by
  have hfresh : ∀ (t : Nat) th, T.start.threads[t]? = some th → ∃ r, th = { prog := Request.statements r } := by
    intro t th hth
    obtain ⟨r, -, rfl⟩ := Option.map_eq_some_iff.mp ((List.getElem?_map ..).symm.trans hth)
    exact ⟨r, rfl⟩
  constructor
  · intro t th hth
    obtain ⟨r, rfl⟩ := hfresh t th hth
    exact guarded_statements r
  · exact fun _ _ _ _ row hrow => absurd hrow List.not_mem_nil
  · intro t th hth row hrow
    obtain ⟨r, rfl⟩ := hfresh t th hth
    exact absurd hrow List.not_mem_nil
  · intro t th hth id row hrow
    obtain ⟨r, rfl⟩ := hfresh t th hth
    exact absurd hrow List.not_mem_nil
  · intro t th hth row hrow
    obtain ⟨r, rfl⟩ := hfresh t th hth
    exact absurd hrow List.not_mem_nil

/-- A row the transaction sees now is a committed one, or one it has expired itself. -/
theorem AsRead.sees (h : AsRead stale c) (hs : Db.Sound bookingTable c.shared.db) {th : Thread Stmts Err Unit}
    (hth : c.threads[t]? = some th) (hwrote : (Traffic.sight th).wrote = false) {row : BookingRow}
    (hrow : row ∈ c.shared.view t) : row.status = .expired ∨ row ∈ c.shared.db.committed := by
  rcases hs.mem_view.mp hrow with hown | ⟨hcommitted, -⟩
  · exact Or.inl (h.expiries t th hth hwrote row hown)
  · exact Or.inr hcommitted

/-- **The edge of an update**: the guard passed on a row that is still the committed one. -/
theorem AsRead.edge (h : AsRead stale c) (hs : Db.Sound bookingTable c.shared.db) {th : Thread Stmts Err Unit}
    (hth : c.threads[t]? = some th) {id : String} {status : BookingStatus}
    (hguard : Guard (Traffic.sight th) (.updateStatus id status)) (hfresh : (t, id) ∉ stale) {old : BookingRow}
    (hold : lookup BookingRow.bookingId id c.shared.db.committed = some old) : BookingSm.Edge old.status status := by
  obtain ⟨row, hrow, rfl, hedge⟩ :
      ∃ row ∈ (Traffic.sight th).rows, row.bookingId = id ∧ BookingSm.Edge row.status status := by
    -- the sweep selected the row as HELD; every other use-case asked the machine
    rcases hguard with ⟨rfl, row, hrow, hid⟩ | ⟨row, hrow, hedge⟩
    · refine ⟨row, List.mem_append_left _ hrow, hid, ?_⟩
      rw [h.due t th hth row hrow]
      exact ⟨.expire, rfl⟩
    · exact ⟨row, List.mem_append_right _ (List.mem_map.mpr ⟨_, hrow, rfl⟩), h.found t th hth id row hrow, hedge⟩
  rcases h.kept t th hth row hrow hfresh with hexpired | hcommitted
  · exact absurd hexpired (BookingSm.terminal hedge).2
  · have hlook : lookup BookingRow.bookingId row.bookingId c.shared.db.committed = some row :=
      lookup_of_mem hs.keyed hcommitted
    rw [hlook] at hold
    rw [← Option.some.inj hold]
    exact hedge

/-- **Step lemma** for the readings. A commit leaves alone what it has not written, and makes the rest stale. -/
theorem asRead_step (T : Traffic) (h : AsRead stale c) (hs : Db.Sound bookingTable c.shared.db) :
    AsRead (Traffic.noteOvertaken stale c t) (T.machine.step c t) := by
  have hguarded := Machine.Follows.step (M := T.machine) h.guarded t
  have hgrows : ∀ {p}, p ∉ Traffic.noteOvertaken stale c t → p ∉ stale := fun hp hmem => hp (List.mem_append_left _ hmem)
  have hmove := T.machine.step_move c t
  generalize T.machine.step c t = c' at hmove hguarded ⊢
  cases hmove with
  | stay => exact ⟨hguarded, h.expiries, h.due, h.found, fun u th hth row hrow hp => h.kept u th hth row hrow (hgrows hp)⟩
  | @finish th res hth hlive hres =>
      have hlt := (List.getElem?_eq_some_iff.mp hth).1
      -- a closed request keeps its log, and loses what it had in doubt
      have hsame : ∀ (u : Nat) th', (c.threads.set t { th with ended := true })[u]? = some th' →
          ∃ th₀, c.threads[u]? = some th₀ ∧ Traffic.sight th' = Traffic.sight th₀ := by
        intro u th' hth'
        rcases set_cases hlt hth' with ⟨-, hth'⟩ | ⟨rfl, rfl⟩
        · exact ⟨th', hth', rfl⟩
        · exact ⟨th, hth, rfl⟩
      refine ⟨hguarded, ?_, ?_, ?_, ?_⟩
      · intro u th' hth' hwrote row hrow
        obtain ⟨th₀, hth₀, hsight⟩ := hsame u th' hth'
        exact h.expiries u th₀ hth₀ (hsight ▸ hwrote) row (Db.own_drop.mp hrow).1
      · intro u th' hth' row hrow
        obtain ⟨th₀, hth₀, hsight⟩ := hsame u th' hth'
        exact h.due u th₀ hth₀ row (hsight ▸ hrow)
      · intro u th' hth' id row hrow
        obtain ⟨th₀, hth₀, hsight⟩ := hsame u th' hth'
        exact h.found u th₀ hth₀ id row (hsight ▸ hrow)
      · intro u th' hth' row hrow hp
        obtain ⟨th₀, hth₀, hsight⟩ := hsame u th' hth'
        exact h.kept u th₀ hth₀ row (hsight ▸ hrow) (hgrows hp)
  | @act th o k r s hth hlive hprog hexec =>
      have hlt := (List.getElem?_eq_some_iff.mp hth).1
      have heffect := Server.exec_effect hexec
      have hguard : Guard (Traffic.sight th) o := h.guarded.allowed hth hprog
      have hsight : ∀ b, Traffic.sight ⟨k r, th.log ++ [⟨o, r⟩], b⟩ = (Traffic.sight th).note o r := fun b =>
        Machine.know_snoc ..
      have hseen : SeenNow c.shared t (Traffic.sight th) ((Traffic.sight th).note o r) := seen_effect heffect
      refine ⟨hguarded, ?_, ?_, ?_, ?_⟩
      · intro u th' hth' hwrote row hrow
        rcases set_cases hlt hth' with ⟨hu, hth'⟩ | ⟨rfl, rfl⟩
        · rw [heffect.own_others hu] at hrow
          exact h.expiries u th' hth' hwrote row hrow
        · rw [hsight] at hwrote
          exact expiries_effect heffect (h.expiries u th hth) hwrote row hrow
      · intro u th' hth' row hrow
        rcases set_cases hlt hth' with ⟨-, hth'⟩ | ⟨rfl, rfl⟩
        · exact h.due u th' hth' row hrow
        · rw [hsight] at hrow
          exact (hseen.due row hrow).elim (h.due u th hth row) And.right
      · intro u th' hth' id row hrow
        rcases set_cases hlt hth' with ⟨-, hth'⟩ | ⟨rfl, rfl⟩
        · exact h.found u th' hth' id row hrow
        · rw [hsight] at hrow
          exact (hseen.found id row hrow).elim (h.found u th hth id row) And.right
      · intro u th' hth' row hrow hp
        by_cases hcommit : o = .commit
        · -- another request's reading survives if the commit has not written the row
          subst hcommit
          rcases set_cases hlt hth' with ⟨hu, hth'⟩ | ⟨rfl, rfl⟩
          · refine (h.kept u th' hth' row hrow (hgrows hp)).imp id fun hcommitted => ?_
            have hread : row.bookingId ∈ Traffic.readBy c u := by
              unfold Traffic.readBy
              rw [hth']
              exact List.mem_map_of_mem hrow
            have hunwritten : row.bookingId ∉ (c.shared.db.own t).map (·.bookingId) := fun hwritten =>
              hp (List.mem_append_right _
                (Traffic.mem_overtaken (Config.next_eq hth hlive hprog) hu hread hwritten))
            cases heffect with
            | committed => exact hs.mem_view_of_committed hcommitted hunwritten
            | aside ho => exact ho.elim
          · cases heffect with
            | committed =>
                rw [hsight] at hrow
                exact absurd hrow List.not_mem_nil
            | aside ho => exact ho.elim
        · rw [heffect.committed_kept hcommit]
          rcases set_cases hlt hth' with ⟨-, hth'⟩ | ⟨rfl, rfl⟩
          · exact h.kept u th' hth' row hrow (hgrows hp)
          · rw [hsight] at hrow
            by_cases hold : row ∈ (Traffic.sight th).rows
            · exact h.kept u th hth row hold (hgrows hp)
            · -- read just now, and nothing but expiries has been written before
              refine h.sees hs hth ?_ ((hseen.rows hrow).resolve_left hold)
              cases o with
              | selectById id => exact hguard
              | select f =>
                  cases f with
                  | overdue now => exact hguard
                  | _ => exact absurd (by cases r <;> exact hrow) hold
              | commit => exact absurd rfl hcommit
              | updateStatus id status =>
                  refine absurd ?_ hold
                  cases r with
                  | error e => exact hrow
                  | ok u =>
                      dsimp only [Sight.note] at hrow
                      split at hrow <;> exact hrow
              | _ => exact absurd (by cases r <;> exact hrow) hold

/-! ## The run -/

/-- **Step lemma.** An update that nobody has overtaken keeps the histories orderly. -/
theorem orderly_step (T : Traffic) (h : Orderly c.shared) (hread : AsRead stale c)
    (hrace : Traffic.Unovertaken stale c t) : Orderly (T.machine.step c t).shared := by
  have hmove := T.machine.step_move c t
  generalize T.machine.step c t = c' at hmove ⊢
  cases hmove with
  | stay => exact h
  | finish => exact h.close t
  | act hth hlive hprog hexec =>
      have hnext := Config.next_eq hth hlive hprog
      unfold Traffic.Unovertaken at hrace
      rw [hnext] at hrace
      cases Server.exec_effect hexec with
      | inserted hfresh hw =>
          -- a committed row of that key would have been visible
          exact h.write hw fun old hold => absurd (h.sound.committed_visible hold) hfresh
      | updated hrow hw =>
          refine h.write hw fun old hold => ?_
          obtain rfl := lookup_some_key hrow
          exact hread.edge h.sound hth (hread.guarded.allowed hth hprog) hrace hold
      | committed => exact h.commit
      | charged => exact ⟨h.sound, h.tracks, fun id => ⟨(h.paths id).edges, (h.paths id).last⟩⟩
      | _ => exact h

/-- **Committed status changes obey the state machine** in every run in which no booking is overtaken between a
    request's reading of it and its status update. -/
theorem status_paths (T : Traffic) (sched : List Nat) (hrace : T.NoneOvertaken sched) :
    ∀ c ∈ T.machine.visited T.start sched, ∀ bookingId, StatusPath c.shared bookingId := by
  intro c hc
  obtain ⟨stale, horderly, -⟩ := T.machine.visited_noting (I := fun stale c => Orderly c.shared ∧ AsRead stale c)
    (fun _ _ _ h hok => ⟨orderly_step T h.1 h.2 hok, asRead_step T h.2 h.1.sound⟩)
    ⟨orderly_start T.trips, asRead_start T⟩ hrace c hc
  exact horderly.paths

/-! ## A payment in the last second -/

/-- A hold, its confirmation in the last second, and a rival hold one second later, whose sweep finds the
    first one due. -/
def lastSecond : Traffic where
  trips := sampleTrips
  requests :=
    [⟨.hold "slow" "A1" firstHop "nic1" "Nimal" none, sampleDeps 0 "0", acceptAll⟩,
     ⟨.confirm "b0", sampleDeps 899 "1", acceptAll⟩,
     ⟨.hold "slow" "A2" firstHop "nic2" "Kamala" none, sampleDeps 900 "2", acceptAll⟩]

/-- The rival's sweep starts only after the confirmation. -/
def inTurn : List Nat := List.replicate 9 0 ++ List.replicate 10 1 ++ List.replicate 9 2

theorem status_paths_lastSecond : lastSecond.NoneOvertaken inTurn ∧
    StatusPath (lastSecond.machine.runs lastSecond.start inTurn).shared "b0" ∧
    (lastSecond.machine.runs lastSecond.start inTurn).shared.history "b0" = [.held, .confirmed] := by
  have hrace : lastSecond.NoneOvertaken inTurn := by decide +kernel
  refine ⟨hrace, ?_, by decide +kernel⟩
  exact status_paths lastSecond inTurn hrace _ (lastSecond.machine.runs_mem_visited _ _) "b0"

/-- The rival's sweep selects the held booking, the confirmation charges and commits, the sweep's update runs. -/
def sweptAfterPayment : List Nat := List.replicate 9 0 ++ [2] ++ List.replicate 9 1 ++ List.replicate 9 2

/-- **A paid booking expires.** -/
theorem paid_booking_expires :
    (lastSecond.machine.runs lastSecond.start sweptAfterPayment).shared.history "b0" =
      [.held, .confirmed, .expired] ∧
    ¬ ∀ (T : Traffic) (sched : List Nat), ∀ c ∈ T.machine.visited T.start sched, ∀ bookingId,
      StatusPath c.shared bookingId := by
  have hhistory : (lastSecond.machine.runs lastSecond.start sweptAfterPayment).shared.history "b0" =
      [.held, .confirmed, .expired] := by decide +kernel
  refine ⟨hhistory, fun hall => ?_⟩
  have hpath := hall lastSecond sweptAfterPayment _ (lastSecond.machine.runs_mem_visited _ _) "b0"
  have hedges := hpath.edges
  rw [hhistory] at hedges
  exact absurd hedges (by decide)

end SlrBooking
