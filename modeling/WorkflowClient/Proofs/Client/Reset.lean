import WorkflowClient.Proofs.Client.Endings
import WorkflowClient.Proofs.Message.Requests

/-! Resets: how the point of a reset is handed in, what is asked of the service, and what its answer
comes to. -/
namespace WorkflowClient
open Message
open Diagnostic (tick)

namespace Message
variable {α : Type}

/-- The fields of a record as a dict, by their own names. -/
def Shape.toDict (S : Shape α) (a : α) : Value :=
  .dict ((S.fields a).map fun f => (.str f.1, f.2))

theorem membersOf_map_str (ms : Members) : membersOf (ms.map fun m => (.str m.1, m.2)) = ms := by
  induction ms with
  | nil => rfl
  | cons m rest ih =>
    have hcons : membersOf ((m :: rest).map fun m => (.str m.1, m.2)) =
      m :: membersOf (rest.map fun m => (.str m.1, m.2)) := rfl
    rw [hcons, ih]

/-- A record and the dict of its fields are read alike. -/
theorem Shape.ofValue_toDict (S : Shape α) (a : α) :
    S.ofValue (S.toDict a) = S.ofValue (S.toValue a) := by
  have hdict : S.ofValue (S.toDict a) = S.ofMembers (S.fields a) :=
    congrArg S.ofMembers (membersOf_map_str (S.fields a))
  have hrecord : S.ofValue (S.toValue a) = S.ofMembers (S.fields a) := if_pos rfl
  exact hdict.trans hrecord.symm

namespace ResetType

/-- The member of a request that only points of the type have. -/
def memberName : ResetType → String
  | .historyEvent => "historyEventId"
  | .badBinary => "resetBadBinaryChecksum"
  | .completedTime => "earliestTime"
  | .lastCompleted => "decisionOffset"

/-- Members that every request for a reset may have. -/
def commonNames : List String :=
  ["workflowId", "workflowRunId", "resetType", "reason", "skipSignalReapply"]

theorem memberName_injective : Function.Injective memberName := by
  intro t u h
  cases t <;> cases u <;> first | rfl | exact absurd h (by decide)

theorem memberName_not_common (t : ResetType) : t.memberName ∉ commonNames := by
  cases t <;> decide

end ResetType

namespace ResetPoint
variable (p : ResetPoint)

/-- The point as an instance of the class for its type. -/
def toValue : Value := (shape p.type).toValue p

/-- The point as a dict. -/
def toDict : Value := (shape p.type).toDict p

theorem ofMembers_fields : (shape p.type).ofMembers p.fields = .ok p := by
  cases p with
  | historyEvent id => rfl
  | badBinary checksum => rfl
  | completedTime earliest => rfl
  | lastCompleted offset => rfl

theorem tag?_fields : tag? p.fields = some (ResetType.choices.toValue p.type) := rfl

theorem ofTagged_type (t : ResetType) (v : Value) :
    ofTagged (some (ResetType.choices.toValue t)) v =
      ((shape t).ofValue v).below (.name t.text) := by
  cases t <;> rfl

/-- The type that the fields name leads to the class that reads the point. -/
theorem ofTagged_of_ofValue {v : Value} (h : (shape p.type).ofValue v = .ok p) :
    ofTagged (tag? p.fields) v = .ok p := by
  rw [tag?_fields, ofTagged_type]
  exact Validation.below_eq_ok.mpr h

theorem ofValue_toValue : ofValue p.toValue = .ok p := by
  apply p.ofTagged_of_ofValue
  exact (if_pos rfl).trans p.ofMembers_fields

theorem ofValue_toDict : ofValue p.toDict = .ok p := by
  have hmembers : membersOf (p.fields.map fun f => (.str f.1, f.2)) = p.fields :=
    membersOf_map_str p.fields
  have hread : (shape p.type).ofValue p.toDict = .ok p := by
    rw [toDict, Shape.ofValue_toDict]
    exact (if_pos rfl).trans p.ofMembers_fields
  change ofTagged (tag? (membersOf (p.fields.map fun f => (.str f.1, f.2)))) p.toDict = .ok p
  rw [hmembers]
  exact p.ofTagged_of_ofValue hread

/-- What belongs to the type of the point, as the request carries it. -/
def ownData : ResetPoint → Json
  | .historyEvent id => .int id
  | .badBinary checksum => .str checksum
  | .completedTime earliest => .str earliest
  | .lastCompleted offset => .int offset

/-- The members of the request that forks off at the point. -/
def forwarded (workflowId : String) (runId reason : Option String) (skip : Bool) :
    List (String × Json) :=
  ("workflowId", .str workflowId) ::
    (runId.toList.map fun run => ("workflowRunId", .str run)) ++
    [("resetType", .str p.type.text), (p.type.memberName, p.ownData)] ++
    (reason.toList.map fun why => ("reason", .str why)) ++ [("skipSignalReapply", .bool skip)]

theorem toWire_request (workflowId : String) (runId reason : Option String) (skip : Bool) :
    ResetRequest.shape.toWire (p.request workflowId runId reason skip) =
      .object (p.forwarded workflowId runId reason skip) := by
  cases p <;> cases runId <;> cases reason <;> rfl

theorem names_forwarded (workflowId : String) (runId reason : Option String) (skip : Bool) :
    (p.forwarded workflowId runId reason skip).map (·.1) ⊆
      p.type.memberName :: ResetType.commonNames := by
  cases runId <;> cases reason <;> simp [forwarded, ResetType.commonNames]

theorem not_mem_forwarded {t : ResetType} (ht : t ≠ p.type) (workflowId : String)
    (runId reason : Option String) (skip : Bool) :
    t.memberName ∉ (p.forwarded workflowId runId reason skip).map (·.1) := by
  intro hmem
  rcases List.mem_cons.mp (p.names_forwarded _ _ _ _ hmem) with hown | hcommon
  · exact ht (ResetType.memberName_injective hown)
  · exact t.memberName_not_common hcommon

end ResetPoint
end Message

namespace Client
variable {p : ResetPoint} {point : Value}

/-- What is logged before a run is reset. -/
def resettingRecord (workflowId : String) (t : ResetType) : Log.Record :=
  ⟨.client, Log.debug, "Resetting workflow " ++ tick workflowId ++ " (" ++ t.text ++ ")"⟩

/-- The request depends on the point that is read, and not on how it was handed in. -/
theorem resetRequest_of_point (h : ResetPoint.ofValue point = .ok p) (workflowId : String)
    (runId reason : Option String) (skip : Bool) :
    resetRequest (.str workflowId) (ofText? runId) point (ofText? reason) (.bool skip) =
      ⟨.ok (p.request workflowId runId reason skip), [],
        [resettingRecord workflowId (p.request workflowId runId reason skip).type]⟩ := by
  have hchecked : ResetRequest.shape.ofMembers
      ([("workflow_id", .str workflowId), ("workflow_run_id", ofText? runId),
        ("reason", ofText? reason), ("skip_signal_reapply", .bool skip)] ++ p.fields) =
      .ok (p.request workflowId runId reason skip) :=
    ResetRequest.ofMembers_eq_ok.mpr ⟨_, _, _, _, rfl, nullable_text_ofText? runId,
      nullable_text_ofText? reason, rfl, rfl⟩
  have hpoint : Run.checked (ResetPoint.ofValue point) = ⟨.ok p, [], []⟩ := by
    rw [h]
    rfl
  rw [resetRequest, Run.bind_of_ok hpoint, hchecked]
  rfl

/-- A reset from its arguments to its result. One request goes out, with the member that belongs to
the type of the point and that of no other type, and with what else was given; its answer is
searched for the name of the new run. It is all the same whether the point is handed in as an
instance or as the dict of its fields. -/
theorem reset_outcomes (service : Service) (p : ResetPoint) (workflowId : String)
    (runId reason : Option String) (skip : Bool) :
    let run := reset service (.str workflowId) (ofText? runId) p.toValue (ofText? reason)
      (.bool skip)
    let request := p.request workflowId runId reason skip
    run.calls = [.reset request] ∧
      (Call.reset request).wire = .object (p.forwarded workflowId runId reason skip) ∧
      (∀ t : ResetType, t ≠ p.type →
        t.memberName ∉ (p.forwarded workflowId runId reason skip).map (·.1)) ∧
      reset service (.str workflowId) (ofText? runId) p.toDict (ofText? reason) (.bool skip) =
        run ∧
      Run.Names "reset" ((service.reset request).result.map (·.runId)) run.result := by
  intro run request
  have hrequest := resetRequest_of_point p.ofValue_toValue workflowId runId reason skip
  have hdict := resetRequest_of_point p.ofValue_toDict workflowId runId reason skip
  obtain ⟨hcalls, hnames⟩ := Run.call_namedRun "reset" (.reset request) (service.reset request)
    (·.runId)
  have hrun : run = _ := Run.bind_of_ok hrequest _
  refine ⟨?_, p.toWire_request workflowId runId reason skip, ?_, ?_, ?_⟩
  · rw [hrun]
    exact hcalls
  · intro t ht
    exact p.not_mem_forwarded ht workflowId runId reason skip
  · have hsame := hdict.trans hrequest.symm
    change (resetRequest _ _ p.toDict _ _ >>= _) = (resetRequest _ _ p.toValue _ _ >>= _)
    rw [hsame]
  · rw [hrun]
    exact hnames

end Client
end WorkflowClient
