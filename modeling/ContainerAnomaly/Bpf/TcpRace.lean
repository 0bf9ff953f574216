import ContainerAnomaly.Bpf.TcpStats
import ContainerAnomaly.Lib.Interleaving

/-!
# `bump` on several CPUs

A call of `bump` is a lookup followed by an addition in place or by an insert, and calls on other
CPUs may come between. An insert that finds the entry another call has made fails, and `bump` does
not look again: the counters of that call are lost. A run of calls counts what a sequential
execution does exactly when what these calls lose is nothing (`races_iff`).
-/

namespace ContainerAnomaly.Bpf

open Lib

variable {cpus : Nat}

/-- A call of `bump`. -/
structure BumpCall (cpus : Nat) where
  /-- Where it runs. -/
  cpu : Fin cpus
  /-- The process. -/
  tgid : UInt32
  /-- The bytes that it sends. -/
  txB : UInt64
  /-- The bytes that it receives. -/
  rxB : UInt64
  /-- The segments that it sends again. -/
  retrans : UInt64

/-- What a call has to count. -/
def BumpCall.counters (call : BumpCall cpus) : TcpStats :=
  .fresh call.txB call.rxB call.retrans

/-- Where a call stands between its map operations. -/
inductive BumpPlace where
  /-- Before `bpf_map_lookup_elem`. -/
  | lookup
  /-- With a pointer into the entry. -/
  | add
  /-- Before `bpf_map_update_elem` with `BPF_NOEXIST`. -/
  | insert
  | done
deriving DecidableEq

/-- The next map operation of a call; a refused insert is put out, though `bump` does not look at
its error. -/
def bumpStep {ι : Type} (layout : Layout UInt32) (calls : ι → BumpCall cpus) (caller : ι)
    (table : TcpTable cpus) : BumpPlace → (TcpTable cpus × BumpPlace) × List ι
  | .lookup =>
    match table.lookup (calls caller).tgid with
    | some _ => ((table, .add), [])
    | none => ((table, .insert), [])
  | .add =>
    ((table.modify (calls caller).tgid fun slots =>
      Function.update slots (calls caller).cpu ((slots (calls caller).cpu).grow
        (calls caller).txB (calls caller).rxB (calls caller).retrans), .done), [])
  | .insert =>
    match table.insertNew layout (calls caller).tgid
      (Function.update (fun _ => {}) (calls caller).cpu (calls caller).counters) with
    | some next => ((next, .done), [])
    | none => ((table, .done), [caller])
  | .done => ((table, .done), [])

/-- Calls of `bump` on a shared table. -/
def bumps {ι : Type} (layout : Layout UInt32) (calls : ι → BumpCall cpus) :
    Shared ι (TcpTable cpus) BumpPlace ι :=
  ⟨bumpStep layout calls⟩

/-- `bump` for a call. -/
def BumpCall.run (call : BumpCall cpus) (layout : Layout UInt32) (table : TcpTable cpus) :
    TcpTable cpus :=
  bump layout table call.cpu call.tgid call.txB call.rxB call.retrans

section Steps

variable {ι : Type} (layout : Layout UInt32) (calls : ι → BumpCall cpus) (caller : ι)
  (table : TcpTable cpus)

/-- A lookup decides which way a call goes. -/
theorem bumpStep_lookup : bumpStep layout calls caller table .lookup =
    ((table, if (calls caller).tgid ∈ table.keys then .add else .insert), []) := by
  unfold bumpStep
  cases found : table.lookup (calls caller).tgid with
  | some slots => simp [(table.mem_keys_iff _).mpr ⟨slots, found⟩]
  | none => simp [(table.lookup_eq_none_iff _).mp found]

/-- An addition in place is what `bump` does to an entry that is there. -/
theorem bumpStep_add (present : (calls caller).tgid ∈ table.keys) :
    bumpStep layout calls caller table .add =
      (((calls caller).run layout table, .done), []) := by
  obtain ⟨slots, found⟩ := (table.mem_keys_iff _).mp present
  simp only [bumpStep, BumpCall.run, bump, found]

/-- An insert is what `bump` does when the entry is still missing and there is room. -/
theorem bumpStep_insert (absent : (calls caller).tgid ∉ table.keys)
    (room : table.entries.length < 10240) :
    bumpStep layout calls caller table .insert =
      (((calls caller).run layout table, .done), []) := by
  have missed := (table.lookup_eq_none_iff _).mpr absent
  obtain ⟨next, stored⟩ := Option.isSome_iff_exists.mp
    ((HashTable.insertNew_isSome_iff layout table (calls caller).tgid
      (Function.update (fun _ => {}) (calls caller).cpu (calls caller).counters)).mpr
      ⟨absent, room⟩)
  have made : (calls caller).run layout table = next := by
    simp only [BumpCall.run, bump, missed]
    exact (congrArg (·.getD table) stored).trans rfl
  simp only [bumpStep, stored, made]

/-- An insert is refused when the entry has been made. -/
theorem bumpStep_refused (present : (calls caller).tgid ∈ table.keys) :
    bumpStep layout calls caller table .insert = ((table, .done), [caller]) := by
  have refused : table.insertNew layout (calls caller).tgid
      (Function.update (fun _ => {}) (calls caller).cpu (calls caller).counters) = none := by
    rw [← Option.not_isSome_iff_eq_none, HashTable.insertNew_isSome_iff]
    exact fun both => both.1 present
  simp only [bumpStep, refused]

/-- Two steps of a call that nothing comes between are `bump`. -/
theorem bump_alone [DecidableEq ι] (places : ι → BumpPlace) (begins : places caller = .lookup)
    (room : (calls caller).tgid ∈ table.keys ∨ table.entries.length < 10240) :
    (bumps layout calls).machine.final (table, places) [caller, caller] =
      ((calls caller).run layout table, Function.update places caller .done) := by
  have run : (bumps layout calls).alone caller 2 (table, .lookup) =
      ((calls caller).run layout table, .done) := by
    rw [Shared.alone_succ, Shared.alone_succ]
    show (bumpStep layout calls caller (bumpStep layout calls caller table .lookup).1.1
      (bumpStep layout calls caller table .lookup).1.2).1 = _
    rw [bumpStep_lookup]
    by_cases present : (calls caller).tgid ∈ table.keys
    · simp only [if_pos present, bumpStep_add layout calls caller table present]
    · simp only [if_neg present,
        bumpStep_insert layout calls caller table present (room.resolve_left present)]
  have twice : [caller, caller] = List.replicate 2 caller := rfl
  simp only [twice, Shared.final_replicate, begins, run]

/-- A call that has its entry or room for it adds its counters. -/
theorem tcpTotal_run (call : BumpCall cpus)
    (room : call.tgid ∈ table.keys ∨ table.entries.length < 10240) (tgid : UInt32) :
    tcpTotal (call.run layout table) tgid =
      tcpTotal table tgid + if call.tgid = tgid then call.counters else 0 := by
  rw [BumpCall.run, tcpTotal_bump, bumped]
  by_cases own : call.tgid = tgid
  · subst own
    rw [if_pos ⟨rfl, room⟩, if_pos rfl]
    rfl
  · rw [if_neg fun both => own both.1.symm, if_neg own]

/-- A call makes no entry but its own. -/
theorem mem_keys_run (call : BumpCall cpus) (key : UInt32)
    (member : key ∈ (call.run layout table).keys) : key ∈ table.keys ∨ key = call.tgid := by
  obtain ⟨slots, found⟩ := (HashTable.mem_keys_iff _ _).mp member
  by_cases own : key = call.tgid
  · exact .inr own
  · left
    rw [HashTable.mem_keys_iff]
    rcases bump_cases layout table call.cpu call.tgid call.txB call.rxB call.retrans with
      ⟨_, stored⟩ | ⟨_, same⟩
    · rw [BumpCall.run, stored, if_neg own] at found
      exact ⟨slots, found⟩
    · rw [BumpCall.run, same] at found
      exact ⟨slots, found⟩

/-- A call keeps the entries that are there. -/
theorem mem_keys_run_of_mem (call : BumpCall cpus) (key : UInt32) (member : key ∈ table.keys) :
    key ∈ (call.run layout table).keys := by
  obtain ⟨slots, found⟩ := (HashTable.mem_keys_iff _ _).mp member
  rw [HashTable.mem_keys_iff]
  rcases bump_cases layout table call.cpu call.tgid call.txB call.rxB call.retrans with
    ⟨_, stored⟩ | ⟨_, same⟩
  · rw [BumpCall.run, stored]
    by_cases own : key = call.tgid
    · exact ⟨_, if_pos own⟩
    · exact ⟨slots, (if_neg own).trans found⟩
  · rw [BumpCall.run, same]
    exact ⟨slots, found⟩

end Steps

/-- What holds while calls race: entries belong to thread groups that fit, and a call that adds
has an entry to add to. -/
structure Racing {ι : Type} (claimed : Finset UInt32) (calls : ι → BumpCall cpus)
    (state : TcpTable cpus × (ι → BumpPlace)) : Prop where
  /-- The entries are those of processes that fit. -/
  held : ∀ key ∈ state.1.keys, key ∈ claimed
  /-- A call that is about to add has found its entry. -/
  found : ∀ caller, state.2 caller = .add → (calls caller).tgid ∈ state.1.keys

section Race

variable {ι : Type} {layout : Layout UInt32} {calls : ι → BumpCall cpus}
  {claimed : Finset UInt32}

/-- What a step of a call can do: look, count as `bump` does, be refused, or nothing. -/
theorem Racing.cases (fits : claimed.card ≤ 10240) (mine : ∀ caller, (calls caller).tgid ∈ claimed)
    {state : TcpTable cpus × (ι → BumpPlace)} (racing : Racing claimed calls state)
    (caller : ι) :
    (∃ place, (place = .add → (calls caller).tgid ∈ state.1.keys) ∧
      place ≠ .done ∧ state.2 caller = .lookup ∧
      bumpStep layout calls caller state.1 (state.2 caller) = ((state.1, place), [])) ∨
    (state.2 caller ≠ .done ∧
      bumpStep layout calls caller state.1 (state.2 caller) =
        (((calls caller).run layout state.1, .done), []) ∧
      ((calls caller).tgid ∈ state.1.keys ∨ state.1.entries.length < 10240)) ∨
    (state.2 caller = .insert ∧ (calls caller).tgid ∈ state.1.keys ∧
      bumpStep layout calls caller state.1 (state.2 caller) = ((state.1, .done), [caller])) ∨
    (state.2 caller = .done ∧
      bumpStep layout calls caller state.1 (state.2 caller) = ((state.1, .done), [])) := by
  cases stands : state.2 caller with
  | lookup =>
    refine .inl ⟨_, ?_, ?_, rfl, bumpStep_lookup layout calls caller state.1⟩
    · by_cases present : (calls caller).tgid ∈ state.1.keys <;> simp [present]
    · by_cases present : (calls caller).tgid ∈ state.1.keys <;> simp [present]
  | add =>
    have present := racing.found caller stands
    exact .inr (.inl ⟨by simp, bumpStep_add layout calls caller state.1 present, .inl present⟩)
  | insert =>
    by_cases present : (calls caller).tgid ∈ state.1.keys
    · exact .inr (.inr (.inl ⟨rfl, present, bumpStep_refused layout calls caller _ present⟩))
    · have room := state.1.room_of_claimed claimed fits racing.held (mine caller) present
      exact .inr (.inl ⟨by simp, bumpStep_insert layout calls caller _ present room, .inr room⟩)
  | done => exact .inr (.inr (.inr ⟨rfl, rfl⟩))

variable [DecidableEq ι]

/-- A table that has at most gained the entry of a call keeps the race going. -/
theorem Racing.advance (mine : ∀ caller, (calls caller).tgid ∈ claimed)
    {state : TcpTable cpus × (ι → BumpPlace)} (racing : Racing claimed calls state)
    (caller : ι) {table : TcpTable cpus} {place : BumpPlace}
    (kept : ∀ key ∈ state.1.keys, key ∈ table.keys)
    (gained : ∀ key ∈ table.keys, key ∈ state.1.keys ∨ key = (calls caller).tgid)
    (finds : place = .add → (calls caller).tgid ∈ table.keys) :
    Racing claimed calls (table, Function.update state.2 caller place) where
  held key member := (gained key member).elim (racing.held key) fun own => own ▸ mine caller
  found := (Function.forall_update_iff state.2 fun other place =>
      place = .add → (calls other).tgid ∈ table.keys).mpr
    ⟨finds, fun other _ adds => kept _ (racing.found other adds)⟩

/-- What a call owes to a thread group once it is done. -/
def owedTo (calls : ι → BumpCall cpus) (tgid : UInt32) (caller : ι) (place : BumpPlace) :
    TcpStats :=
  if place = .done ∧ (calls caller).tgid = tgid then (calls caller).counters else 0

/-- What a call takes from a thread group when its insert is refused. -/
def lostTo (calls : ι → BumpCall cpus) (tgid : UInt32) (caller : ι) : TcpStats :=
  if (calls caller).tgid = tgid then (calls caller).counters else 0

/-- Every step of a call settles what the call owes, in the table or among what is lost. -/
theorem bumps_ledger (fits : claimed.card ≤ 10240) (mine : ∀ caller, (calls caller).tgid ∈ claimed)
    (tgid : UInt32) :
    (bumps layout calls).Ledger (Racing claimed calls) (fun table => tcpTotal table tgid)
      (owedTo calls tgid) (lostTo calls tgid) := by
  constructor
  · intro state caller racing
    show Racing claimed calls
      ((bumpStep layout calls caller state.1 (state.2 caller)).1.1, Function.update state.2 caller
        (bumpStep layout calls caller state.1 (state.2 caller)).1.2)
    rcases racing.cases fits mine caller with
      ⟨place, finds, _, _, taken⟩ | ⟨_, taken, room⟩ | ⟨_, _, taken⟩ | ⟨_, taken⟩
    · rw [taken]
      exact racing.advance mine caller (fun key => id) (fun key => .inl) finds
    · rw [taken]
      refine racing.advance mine caller (mem_keys_run_of_mem layout state.1 (calls caller))
        (mem_keys_run layout state.1 (calls caller)) fun adds => by cases adds
    · rw [taken]
      exact racing.advance mine caller (fun key => id) (fun key => .inl) fun adds => by cases adds
    · rw [taken]
      exact racing.advance mine caller (fun key => id) (fun key => .inl) fun adds => by cases adds
  · intro state caller racing
    show ∃ amount, tcpTotal (bumpStep layout calls caller state.1 (state.2 caller)).1.1 tgid +
        ((bumpStep layout calls caller state.1 (state.2 caller)).2.map (lostTo calls tgid)).sum =
        tcpTotal state.1 tgid + amount ∧
      owedTo calls tgid caller (bumpStep layout calls caller state.1 (state.2 caller)).1.2 =
        owedTo calls tgid caller (state.2 caller) + amount
    rcases racing.cases fits mine caller with
      ⟨place, _, going, stands, taken⟩ | ⟨going, taken, room⟩ | ⟨stands, _, taken⟩ |
      ⟨stands, taken⟩
    · refine ⟨0, ?_⟩
      rw [taken, stands]
      simp [owedTo, going]
    · refine ⟨lostTo calls tgid caller, ?_⟩
      rw [taken, tcpTotal_run layout state.1 (calls caller) room]
      simp [owedTo, lostTo, going]
    · refine ⟨lostTo calls tgid caller, ?_⟩
      rw [taken, stands]
      simp [owedTo, lostTo]
    · refine ⟨0, ?_⟩
      rw [taken, stands]
      simp [owedTo]

/-- The calls in some order, each run to its end. -/
def sequential (layout : Layout UInt32) (calls : ι → BumpCall cpus) (order : List ι)
    (table : TcpTable cpus) : TcpTable cpus :=
  order.foldl (fun table caller => (calls caller).run layout table) table

omit [DecidableEq ι] in
/-- A sequential execution adds the counters of every call. -/
theorem tcpTotal_sequential (fits : claimed.card ≤ 10240)
    (mine : ∀ caller, (calls caller).tgid ∈ claimed) (order : List ι) (table : TcpTable cpus)
    (held : ∀ key ∈ table.keys, key ∈ claimed) (tgid : UInt32) :
    tcpTotal (sequential layout calls order table) tgid =
      tcpTotal table tgid + (order.map (lostTo calls tgid)).sum := by
  induction order generalizing table with
  | nil => simp [sequential]
  | cons caller order ih =>
    have room : (calls caller).tgid ∈ table.keys ∨ table.entries.length < 10240 := by
      by_cases present : (calls caller).tgid ∈ table.keys
      · exact .inl present
      · exact .inr (table.room_of_claimed claimed fits held (mine caller) present)
    have next : ∀ key ∈ ((calls caller).run layout table).keys, key ∈ claimed := by
      intro key member
      rcases mem_keys_run layout table (calls caller) key member with old | rfl
      · exact held key old
      · exact mine caller
    have rest := ih ((calls caller).run layout table) next
    rw [tcpTotal_run layout table (calls caller) room] at rest
    rw [List.map_cons, List.sum_cons, ← add_assoc]
    exact rest

end Race

/-- In every interleaving of calls that all end, on a table with room for their thread groups, each
thread group has the counters of a sequential execution exactly when the calls whose insert was
refused have nothing to count for it, all together. -/
theorem races_iff {calling : Nat} (layout : Layout UInt32) (calls : Fin calling → BumpCall cpus)
    (table : TcpTable cpus)
    (fits : (table.keys.toFinset ∪ Finset.univ.image fun caller => (calls caller).tgid).card ≤
      10240)
    (callers : List (Fin calling))
    (finished : ∀ caller, ((bumps layout calls).machine.final
      (table, fun _ => .lookup) callers).2 caller = .done) :
    (∀ tgid,
      tcpTotal ((bumps layout calls).machine.final (table, fun _ => .lookup) callers).1 tgid =
        tcpTotal (sequential layout calls (List.finRange calling) table) tgid) ↔
      ∀ tgid, (((bumps layout calls).machine.outputs (table, fun _ => .lookup) callers).map
        (lostTo calls tgid)).sum = 0 := by
  let claimed := table.keys.toFinset ∪ Finset.univ.image fun caller => (calls caller).tgid
  have mine : ∀ caller, (calls caller).tgid ∈ claimed := fun caller =>
    Finset.mem_union_right _ (Finset.mem_image_of_mem _ (Finset.mem_univ caller))
  have held : ∀ key ∈ table.keys, key ∈ claimed := fun key member =>
    Finset.mem_union_left _ (List.mem_toFinset.mpr member)
  have begins : Racing claimed calls (table, fun _ => .lookup) :=
    ⟨held, fun caller adds => by cases adds⟩
  refine forall_congr' fun tgid => ?_
  have ledger : (bumps layout calls).Ledger _ _ _ _ := bumps_ledger fits mine tgid
  have settled := ledger.run begins callers
  have nothing : ∑ caller, owedTo calls tgid caller .lookup = 0 :=
    Finset.sum_eq_zero fun caller _ => by simp [owedTo]
  have everything : ∑ caller, owedTo calls tgid caller (((bumps layout calls).machine.final
      (table, fun _ => .lookup) callers).2 caller) =
      ((List.finRange calling).map (lostTo calls tgid)).sum := by
    rw [← Fin.sum_univ_def]
    refine Finset.sum_congr rfl fun caller _ => ?_
    rw [finished caller]
    simp [owedTo, lostTo]
  have inTurn : tcpTotal (sequential layout calls (List.finRange calling) table) tgid =
      tcpTotal table tgid + ((List.finRange calling).map (lostTo calls tgid)).sum :=
    tcpTotal_sequential fits mine _ table held tgid
  rw [nothing, add_zero, everything, ← inTurn] at settled
  rw [← settled]
  exact left_eq_add

/-- Two sends of one thread group, on different CPUs. -/
def twoSends (home away : Fin cpus) (caller : Fin 2) : BumpCall cpus :=
  if caller.val = 0 then ⟨home, 7, 100, 0, 0⟩ else ⟨away, 7, 200, 0, 0⟩

/-- Both calls look before either inserts: the 200 bytes of the second are lost. -/
theorem second_send_lost :
    let raced := (bumps (fun _ _ => 0) (twoSends (0 : Fin 2) 1)).machine.final
      (.empty _ _ _, fun _ => .lookup) [0, 1, 0, 1]
    (∀ caller, raced.2 caller = .done) ∧ (tcpTotal raced.1 7).bytesTx = 100 ∧
    ¬ ∀ tgid, tcpTotal raced.1 tgid = tcpTotal (sequential (fun _ _ => 0)
      (twoSends (0 : Fin 2) 1) (List.finRange 2) (.empty _ _ _)) tgid := by
  refine ⟨by decide, by decide, fun same => ?_⟩
  exact absurd (congrArg TcpStats.bytesTx (same 7)) (by decide)

/-- When the first call inserts before the second looks, both are counted. -/
theorem races_iff_in_turn :
    tcpTotal ((bumps (fun _ _ => 0) (twoSends (0 : Fin 2) 1)).machine.final
      (.empty _ _ _, fun _ => .lookup) [0, 0, 1, 1]).1 7 = ⟨300, 0, 2, 0, 0⟩ := by
  have none_refused : (bumps (fun _ _ => 0) (twoSends (0 : Fin 2) 1)).machine.outputs
      (.empty _ _ _, fun _ => .lookup) [0, 0, 1, 1] = [] := by decide
  have same := (races_iff (fun _ _ => 0) (twoSends (0 : Fin 2) 1) (.empty _ _ _) (by decide)
    [0, 0, 1, 1] (by decide)).mpr (fun tgid => by rw [none_refused]; rfl) 7
  rw [same]
  decide

end ContainerAnomaly.Bpf
