import Cordboard.Construction.Topology
import Cordboard.Proof.Registry.Authority
import Cordboard.Data.Outcome

namespace Cordboard.Topology
open Data Connections Url

section
variable (refusal : Refusal) (schema : Schema)

/-- The snapshot that an operation on this address writes. -/
def Op.written (address : String) : Op → Option Snapshot
  | .refresh _ serve now =>
      (readReply schema (serve (address ++ wellKnownPath))).document.map fun document =>
        ⟨now, document.structureHash, document⟩
  | .check .. => none

/-- An operation on a refused endpoint has no address. -/
def Op.address? : Op → Option String
  | .refresh endpoint .. => (validateEndpoint refusal endpoint).toOption
  | .check endpoint _ => (validateEndpoint refusal endpoint).toOption

def Op.writes (op : Op) : Option Snapshot := (op.address? refusal).bind fun address => op.written schema address

/-- The snapshots are a store with one record for each address. -/
def snapshotStore : Keyed String Snapshot Op Unit where
  key op := (op.address? refusal).getD ""
  answer _ _ := ()
  write op _ := op.writes refusal schema
  save dict := dict.sortBy id
  get?_save dict key := dict.get?_sortBy id key

/-- The snapshot of the last refresh of this address that read a valid document. -/
def lastRefreshed (history : List Op) (address : String) : Option Snapshot :=
  history.reverse.findSome? fun op =>
    if op.address? refusal = some address then op.written schema address else none

end

section
variable {refusal : Refusal} {schema : Schema}

theorem fetchTopology_stored {endpoint address : String} (accepted : validateEndpoint refusal endpoint = .ok address)
    (serve : String → Reply) :
    fetchTopology refusal schema address serve = .ok (readReply schema (serve (address ++ wellKnownPath))) := by
  rw [fetchTopology, validateEndpoint_stored accepted]
  rfl

/-- One operation on a readable file is one step of the store. -/
theorem afterOp_readable {file : File Snapshots} {data : Snapshots} (readable : loadSnapshots file = .ok data)
    (op : Op) : loadSnapshots (afterOp refusal schema file op) = .ok ((snapshotStore refusal schema).step data op) := by
  cases op with
  | check endpoint serve =>
      have silent : (Op.check endpoint serve).writes refusal schema = none := by
        rw [Op.writes]
        cases (Op.check endpoint serve).address? refusal <;> rfl
      rw [Keyed.step_silent (snapshotStore refusal schema) silent]
      exact readable
  | refresh endpoint serve now =>
      cases accepted : validateEndpoint refusal endpoint with
      | error exc =>
          have silent : (Op.refresh endpoint serve now).writes refusal schema = none := by
            rw [Op.writes, Op.address?, accepted]
            rfl
          rw [Keyed.step_silent (snapshotStore refusal schema) silent, afterOp, refreshSnapshot, accepted]
          exact readable
      | ok address =>
          have named : (Op.refresh endpoint serve now).address? refusal = some address := by
            rw [Op.address?, accepted]
            rfl
          cases read : (readReply schema (serve (address ++ wellKnownPath))).document with
          | none =>
              have silent : (Op.refresh endpoint serve now).writes refusal schema = none := by
                rw [Op.writes, named, Option.bind_some, Op.written, read, Option.map_none]
              rw [Keyed.step_silent (snapshotStore refusal schema) silent, afterOp, refreshSnapshot, accepted]
              simp only [bind, Except.bind, fetchTopology_stored accepted, read]
              exact readable
          | some document =>
              have wrote : (Op.refresh endpoint serve now).writes refusal schema =
                  some ⟨now, document.structureHash, document⟩ := by
                rw [Op.writes, named, Option.bind_some, Op.written, read, Option.map_some]
              rw [afterOp, refreshSnapshot, accepted]
              simp only [bind, Except.bind, fetchTopology_stored accepted, read, readable, Keyed.step, snapshotStore,
                wrote, named, Option.getD_some]
              rfl

/-- The operations on a readable file are a run of the store. -/
theorem afterOps_readable {file : File Snapshots} {data : Snapshots} (readable : loadSnapshots file = .ok data)
    (history : List Op) :
    loadSnapshots (afterOps refusal schema file history) = .ok ((snapshotStore refusal schema).run data history) := by
  induction history generalizing file data with
  | nil => exact readable
  | cons op rest ih => exact ih (afterOp_readable readable op)

/-- The store holds the last valid refresh of each address. -/
theorem run_last (history : List Op) {endpoint address : String}
    (accepted : validateEndpoint refusal endpoint = .ok address) :
    ((snapshotStore refusal schema).run Dict.empty history).get? address =
      lastRefreshed refusal schema history address := by
  have blind (op : Op) (old : Option Snapshot) :
      (snapshotStore refusal schema).write op old = op.writes refusal schema := rfl
  rw [(snapshotStore refusal schema).get?_run_last blind, Dict.get?_empty, Option.or_none, Keyed.atKey,
    ← List.filter_reverse, lastRefreshed]
  have named : address ≠ "" := by
    intro empty
    have stored := validateEndpoint_stored accepted
    rw [empty] at stored
    cases stored
  induction history.reverse with
  | nil => rfl
  | cons op rest ih =>
      rw [List.findSome?_cons, ← ih]
      by_cases same : op.address? refusal = some address
      · have key : (snapshotStore refusal schema).key op = address := by
          simp only [snapshotStore, same, Option.getD_some]
        have writes : op.writes refusal schema = op.written schema address := by
          rw [Op.writes, same, Option.bind_some]
        rw [List.filter_cons_of_pos (by simpa using key), List.findSome?_cons, writes, if_pos same]
      · have key : (snapshotStore refusal schema).key op ≠ address := by
          intro key
          simp only [snapshotStore] at key
          cases own : op.address? refusal with
          | none =>
              rw [own] at key
              exact named key.symm
          | some other =>
              rw [own, Option.getD_some] at key
              exact same (by rw [own, key])
        rw [List.filter_cons_of_neg (by simpa using key), if_neg same]

/-- The verdict on a document compares it with the last valid refresh. -/
def verdict (last : Option Snapshot) (document : Document) : FreshnessStatus :=
  match last with
  | none => .noSnapshot
  | some snapshot => if snapshot.structureHash ≠ document.structureHash then .changed else .unchanged

/-- The check of a reading after any history of refreshes and checks. -/
def judged (last : Option Snapshot) (reading : TopologyReading) : FreshnessCheck :=
  ⟨(reading.document.map (verdict last)).getD reading.status.unconfirmed, reading⟩

/-- A check compares the answer with the last valid refresh. -/
theorem check_history (refusal : Refusal) (schema : Schema) (history : List Op) {endpoint address : String}
    (accepted : validateEndpoint refusal endpoint = .ok address) (serve : String → Reply) :
    checkFreshness refusal schema (afterOps refusal schema .missing history) endpoint serve =
      .ok (judged (lastRefreshed refusal schema history address)
        (readReply schema (serve (address ++ wellKnownPath)))) := by
  have readable : loadSnapshots (.missing : File Snapshots) = .ok Dict.empty := rfl
  have stored := @afterOps_readable refusal schema _ _ readable history
  rw [checkFreshness, accepted]
  simp only [bind, Except.bind, fetchTopology_stored accepted, judged]
  cases read : (readReply schema (serve (address ++ wellKnownPath))).document with
  | none => rfl
  | some document =>
      simp only [getSnapshot, stored, bind, Except.bind, validateEndpoint_stored accepted, run_last history accepted,
        Option.map_some, Option.getD_some, verdict]
      cases lastRefreshed refusal schema history address <;> rfl

end

/-- The status compares the document of a valid reading with the last refresh, and repeats any other reading. -/
structure Compares (last : Option Snapshot) (reading : TopologyReading) (status : FreshnessStatus) : Prop where
  noSnapshot : status = .noSnapshot ↔ reading.status = .valid ∧ last = none
  unchanged : status = .unchanged ↔ ∃ document snapshot, reading.document = some document ∧ last = some snapshot ∧
    snapshot.structureHash = document.structureHash
  changed : status = .changed ↔ ∃ document snapshot, reading.document = some document ∧ last = some snapshot ∧
    snapshot.structureHash ≠ document.structureHash
  absent : status = .absent ↔ reading.status = .absent
  unreachable : status = .unreachable ↔ reading.status = .unreachable

theorem compares_judged (last : Option Snapshot) (reading : TopologyReading) :
    Compares last reading (judged last reading).status := by
  have documented := reading.documented
  cases read : reading.document with
  | none =>
      rw [read] at documented
      have repeated : (judged last reading).status = reading.status.unconfirmed := by
        rw [judged, read]
        rfl
      rw [repeated]
      cases status : reading.status with
      | valid =>
          rw [status] at documented
          cases documented
      | absent => constructor <;> simp [ReadingStatus.unconfirmed, status, read]
      | unreachable => constructor <;> simp [ReadingStatus.unconfirmed, status, read]
      | invalid => constructor <;> simp [ReadingStatus.unconfirmed, status, read]
  | some document =>
      rw [read] at documented
      have valid : reading.status = .valid := eq_of_beq documented.symm
      have compared : (judged last reading).status = verdict last document := by
        rw [judged, read]
        rfl
      rw [compared]
      cases last with
      | none => constructor <;> simp [verdict, valid, read]
      | some snapshot =>
          by_cases same : snapshot.structureHash = document.structureHash
          · constructor <;> simp [verdict, valid, read, same]
          · constructor <;> simp [verdict, valid, read, same]

/-- A document that is its own hash. -/
def hashOnly : Schema
  | .str hash => .ok ⟨.str hash, hash, [], [], []⟩
  | _ => .error ["document is not a text"]

/-- A server that publishes this hash at every URL. -/
def publishing (hash : String) : String → Reply := fun _ => .response ⟨200, some (.str hash)⟩

end Cordboard.Topology
