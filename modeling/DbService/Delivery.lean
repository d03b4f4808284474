import DbService.Runs
import DbService.GeneratedMessages
import DbService.PureReads

/-!
# How the outcome of a request reaches its callback

`Exchange` follows one request with a session: a proxy issues it, `db::query` accepts it, a
worker handles it and adds a result, and the response arrives while the session is pending.
The client decodes the message by its name before it looks at the error code, and the
worker sends a name only with a message.  So an outcome is delivered exactly when it
carries a message that can be written, or is the error the client makes up itself.

* `outcome_delivered_iff` -- an outcome reaches its callback exactly if a response carries it;
* `acknowledgement_not_carried` -- writes and nops that succeed have none;
* `outcome_not_always_delivered` -- so the callback of a nop is told of an error.
-/

namespace Db

open Reflection ByteText

/-- The protobuf library of a client: the same functions over the types of its generated
pool. -/
def Runtime.withPool (pb : Runtime) (generated_pool : String → Option Descriptor) :
    Runtime :=
  { pb with FindMessageTypeByName := generated_pool }

/-- A request with a session from the call that makes it to the response for it. -/
structure Exchange {σ : Type} (pb : Runtime) (generated_pool : String → Option Descriptor)
    (srv : Server σ) where
  proxy : CDbProxy
  action : ProxyAction
  pRequest : Request
  issued : (proxy.step (pb.withPool generated_pool) action).2 = some pRequest
  nServiceID : Nat
  nTime : Nat
  nThreadIndex : Nat
  sDbCommand : SDbCommand
  accepted : query pb nServiceID pRequest nTime = some (nThreadIndex, sDbCommand)
  /-- The worker, with the command at the head of its batch. -/
  th : CDbThread σ
  rest : List SDbCommand
  input : Input
  nErrorCode : EResultCode
  pMessage : Option Message
  handled : (th.store.process pb srv sDbCommand input.clock).2.1 =
    .handled nErrorCode pMessage
  sResultInfo : SDbResultInfo
  added : (th.processHead pb srv sDbCommand rest input).2.result = some sResultInfo
  /-- What the proxy does before the response arrives. -/
  later : List ProxyAction
  info : SPendingResponseInfo
  pending : (Runs.run (CDbProxy.step (pb.withPool generated_pool))
      (proxy.step (pb.withPool generated_pool) action).1
      later).m_mapPendingResponseInfo[pRequest.session_id.getD 0]? = some info

namespace Exchange

variable {σ : Type} {pb : Runtime} {generated_pool : String → Option Descriptor}
  {srv : Server σ} (x : Exchange pb generated_pool srv)

/-- The proxy when the response arrives. -/
def arrival : CDbProxy :=
  Runs.run (CDbProxy.step (pb.withPool generated_pool))
    (x.proxy.step (pb.withPool generated_pool) x.action).1 x.later

/-- The response makes the callback of the pending record be called once, with the code
and, when there is one, the message of the outcome. -/
def Delivered : Prop :=
  ∃ call, (x.arrival.onMessage (pb.withPool generated_pool) x.sResultInfo.pResponse).invoked =
      x.arrival.invoked ++ [call] ∧
    call.nRequest = x.info.nRequest ∧ call.callback = x.info.callback ∧
    call.nContext = x.info.nContext ∧ call.nErrCode = x.nErrorCode.code ∧
    ∀ m, x.pMessage = some m → call.pMessage = some m

/-- The message of the outcome is of a type the client knows. -/
def MessageKnown : Prop :=
  ∀ m, x.pMessage = some m → (generated_pool m.GetTypeName).isSome ∧
    (pb.withPool generated_pool).Knows m

/-- The response of the exchange is the one `onProcess` makes of the outcome. -/
theorem sResultInfo_eq : x.sResultInfo =
    makeResultInfo pb x.sDbCommand x.nErrorCode x.pMessage x.input.nStack := by
  have hadded := x.added
  unfold CDbThread.processHead at hadded
  rcases hprocess : x.th.store.process pb srv x.sDbCommand x.input.clock with
    ⟨store, outcome, writes⟩
  have houtcome := x.handled
  rw [hprocess] at hadded houtcome
  obtain rfl : outcome = .handled x.nErrorCode x.pMessage := houtcome
  simp only at hadded
  split at hadded
  · cases hadded
  · exact (Option.some.inj hadded).symm

/-- The response goes to the session the request was made in. -/
theorem session_id_eq : x.sResultInfo.pResponse.session_id = x.pRequest.session_id.getD 0 := by
  rw [x.sResultInfo_eq]
  have haccepted := x.accepted
  unfold query at haccepted
  split at haccepted
  · cases haccepted
  · obtain ⟨-, heq⟩ := Prod.mk.inj (Option.some.inj haccepted)
    simp [makeResultInfo, ← heq]

/-- The arriving response makes one call, with what the client reads from it. -/
theorem onMessage_invoked :
    (x.arrival.onMessage (pb.withPool generated_pool) x.sResultInfo.pResponse).invoked =
      x.arrival.invoked ++
        [⟨x.info.nRequest, x.info.callback,
          (CDbProxy.readResponse (pb.withPool generated_pool) x.sResultInfo.pResponse).1,
          (CDbProxy.readResponse (pb.withPool generated_pool) x.sResultInfo.pResponse).2,
          x.info.nContext⟩] := by
  have hpending : x.arrival.m_mapPendingResponseInfo[x.sResultInfo.pResponse.session_id]? =
      some x.info := by
    rw [x.session_id_eq]
    exact x.pending
  rw [CDbProxy.onMessage_of_pending hpending]
  unfold CDbProxy.withoutEntry
  cases x.info.iterTimeout <;> rfl

/-- So the delivery is decided by what the client reads. -/
theorem delivered_iff_readResponse : x.Delivered ↔
    (CDbProxy.readResponse (pb.withPool generated_pool) x.sResultInfo.pResponse).1 =
      x.nErrorCode.code ∧
    ∀ m, x.pMessage = some m →
      (CDbProxy.readResponse (pb.withPool generated_pool) x.sResultInfo.pResponse).2 =
        some m := by
  unfold Delivered
  rw [x.onMessage_invoked]
  constructor
  · intro hcase
    obtain ⟨call, hcall, _, _, _, hcode, hmessage⟩ := hcase
    obtain rfl : _ = call := by simpa using hcall
    exact ⟨hcode, hmessage⟩
  · intro hcase
    obtain ⟨hcode, hmessage⟩ := hcase
    exact ⟨_, rfl, rfl, rfl, rfl, hcode, hmessage⟩

end Exchange

/-- The outcomes a response can carry: a message that can be written, or the error the
client reports for a response it cannot decode. -/
def Deliverable (pb : Runtime) (nErrorCode : EResultCode) : Option Message → Prop
  | some m => (pb.SerializeToString m).isSome
  | none => nErrorCode = .kRC_PROTO_ERROR

section ReadResponse

variable {pb : Runtime} {generated_pool : String → Option Descriptor}
  (hclient : (pb.withPool generated_pool).Lawful) (sDbCommand : SDbCommand)
  (nErrorCode : EResultCode) (nStack : Nat)

include hclient

/-- Without a message there is no name, and the client finds no type under it. -/
theorem readResponse_without_message :
    CDbProxy.readResponse (pb.withPool generated_pool)
        (makeResultInfo pb sDbCommand nErrorCode none nStack).pResponse =
      (EResultCode.kRC_PROTO_ERROR.code, none) := by
  simp [CDbProxy.readResponse, makeResultInfo, hclient.empty_name]

/-- A message of a known type arrives with its code exactly when it can be written. -/
theorem readResponse_message_iff {m : Message} (htype : (generated_pool m.GetTypeName).isSome)
    (hknows : (pb.withPool generated_pool).Knows m) :
    CDbProxy.readResponse (pb.withPool generated_pool)
        (makeResultInfo pb sDbCommand nErrorCode (some m) nStack).pResponse =
      (nErrorCode.code, some m) ↔ (pb.SerializeToString m).isSome := by
  obtain ⟨d, hd⟩ := Option.isSome_iff_exists.mp htype
  have hfind : (pb.withPool generated_pool).FindMessageTypeByName m.GetTypeName = some d := hd
  constructor
  · intro hread
    cases hdata : pb.SerializeToString m with
    | some b => rfl
    | none =>
        -- The content is empty then, and what parses could have been written.
        simp only [CDbProxy.readResponse, makeResultInfo, Option.map_some, Option.getD_some,
          hfind, hdata, Option.getD_none] at hread
        cases hparse : (pb.withPool generated_pool).ParseFromString m.GetTypeName [] with
        | none => simp [hparse] at hread
        | some m' =>
            simp only [hparse, Prod.mk.injEq, Option.some.injEq, true_and] at hread
            have hserialize := hclient.serialize_parse _ _ _ hparse
            rw [hread] at hserialize
            exact absurd (hdata ▸ hserialize) (by simp)
  · intro hdata
    obtain ⟨b, hb⟩ := Option.isSome_iff_exists.mp hdata
    have hparse := hclient.parse_serialize m b hknows hb
    simp [CDbProxy.readResponse, makeResultInfo, hfind, hb, hparse]

end ReadResponse

/-- **Delivery of outcomes, exactly.**  When the client knows the type of the message, an
outcome reaches its callback if and only if the response can carry it. -/
theorem outcome_delivered_iff {σ : Type} {pb : Runtime}
    {generated_pool : String → Option Descriptor} {srv : Server σ}
    (hclient : (pb.withPool generated_pool).Lawful) (x : Exchange pb generated_pool srv)
    (hknown : x.MessageKnown) : x.Delivered ↔ Deliverable pb x.nErrorCode x.pMessage := by
  rw [x.delivered_iff_readResponse, x.sResultInfo_eq]
  cases hmessage : x.pMessage with
  | none =>
      rw [readResponse_without_message hclient]
      constructor
      · intro hcase
        obtain ⟨hcode, _⟩ := hcase
        exact (EResultCode.code_inj hcode).symm
      · intro hcode
        exact ⟨congrArg EResultCode.code (Eq.symm hcode), by simp⟩
  | some m =>
      obtain ⟨htype, hknows⟩ := hknown m hmessage
      rw [show Deliverable pb x.nErrorCode (some m) =
        ((pb.SerializeToString m).isSome = true) from rfl,
        ← readResponse_message_iff hclient x.sDbCommand x.nErrorCode x.input.nStack htype hknows]
      simp [Prod.ext_iff]

/-- A SELECT of player 5 by client 1, handled by a worker without a cache: the server has the
row. -/
def selectExchange : Exchange testRuntime testRuntime.FindMessageTypeByName onePlayerServer where
  proxy := CDbProxy.init
  action := .select ⟨100, true⟩ 1 5 "player_base" 60 7 0
  pRequest :=
    { session_id := some 1
      associate_id := some 5
      type := some .kOT_SELECT
      timeout := some 60
      content := some (packFrom testRuntime (.select_command 5 "player_base")) }
  issued := rfl
  nServiceID := 7
  nTime := 100
  nThreadIndex := 5
  sDbCommand := ⟨7, .kOT_SELECT, 1, 130, some (.select_command 5 "player_base")⟩
  accepted := by
    have hcarries : testRuntime.Carries (.select_command 5 "player_base") :=
      Runtime.withCommands_carries rfl (by decide)
    obtain ⟨szData, hdata, hparse⟩ := hcarries.parse
    have hunpack := (unpack_packFrom hcarries.known hdata).trans hparse
    simp [query, hunpack]
  th := CDbThread.init 0 1 ⟨true, (), 0, []⟩
  rest := []
  input := ⟨⟨101, 101⟩, ⟨[], 0⟩, 7⟩
  nErrorCode := .kRC_OK
  pMessage := some (.row (PlayerBase.player 5 [97]))
  handled := rfl
  sResultInfo := makeResultInfo testRuntime
    ⟨7, .kOT_SELECT, 1, 130, some (.select_command 5 "player_base")⟩ .kRC_OK
    (some (.row (PlayerBase.player 5 [97]))) 7
  added := rfl
  later := []
  info := CDbProxy.init.newInfo .kOT_SELECT 1 (some 160) 7 0
  pending := by simp [Runs.run, CDbProxy.step, CDbProxy.select, CDbProxy.request_r, CDbProxy.init]

/-- Its row can be written, so the callback gets it. -/
theorem outcome_delivered_iff_selectExchange : selectExchange.Delivered := by
  have hclient : (testRuntime.withPool testRuntime.FindMessageTypeByName).Lawful :=
    testRuntime_lawful
  have hknown : selectExchange.MessageKnown := by
    rintro _ ⟨⟩
    exact ⟨rfl, rfl⟩
  exact (outcome_delivered_iff hclient selectExchange hknown).mpr rfl

/-! ## Which operations are affected -/

/-- Writes and nops. -/
def Acknowledged (nType : EOperatorType) : Prop :=
  nType = .kOT_UPDATE ∨ nType = .kOT_INSERT ∨ nType = .kOT_DELETE ∨ nType = .kOT_NOP

/-- The handlers of these operations answer with a code only. -/
theorem handle_without_message {σ : Type} (pb : Runtime) (srv : Server σ)
    {nType : EOperatorType} (htype : Acknowledged nType) (pRequest : Option Message)
    (conn : CDbConnection σ) :
    (CDbThread.handle pb srv nType pRequest conn).2.1 = none := by
  cases pRequest with
  | none => rfl
  | some m =>
      rcases htype with rfl | rfl | rfl | rfl
      · exact writeMessage_without_message pb srv _ _ m conn
      · exact writeMessage_without_message pb srv _ _ m conn
      · exact deleteHandler_without_message pb srv m conn
      · rfl

/-- The pre-step answers an UPDATE without a message, and no other write at all. -/
theorem onPreCache_without_message (pb : Runtime) (mgr : CDbCacheMgr) {nType : EOperatorType}
    (htype : Acknowledged nType) (pRequest : Option Message) (nSetTime : Nat) :
    (CDbThread.onPreCache pb mgr nType pRequest nSetTime).2.1 = none := by
  unfold CDbThread.onPreCache
  split
  · rfl
  · split
    · rcases htype with h | h | h | h <;> cases h
    · split <;> rfl
    · split <;> rfl
    · rfl
    · rfl

/-- **Acknowledgements are lost:** a write or a nop that succeeded has an outcome no
response can carry. -/
theorem acknowledgement_not_carried {σ : Type} {pb : Runtime} {srv : Server σ} {st : Store σ}
    {sDbCommand : SDbCommand} {clock : Clock} (htype : Acknowledged sDbCommand.nType)
    {pMessage : Option Message}
    (hhandled : (st.process pb srv sDbCommand clock).2.1 = .handled .kRC_OK pMessage) :
    ¬ Deliverable pb .kRC_OK pMessage := by
  have hnone : pMessage = none := by
    have hprocessed := Store.process_cases pb srv st sDbCommand clock
    generalize st.process pb srv sDbCommand clock = result at hhandled hprocessed
    cases hprocessed with
    | flush => cases hhandled
    | flushNothing => cases hhandled
    | expired => cases hhandled
    | executed _ _ st' outcome hexecuted =>
        obtain rfl : outcome = _ := hhandled
        cases hexecuted with
        | absorbed _ mgr hpre =>
            have hmessage := onPreCache_without_message pb st.m_dbCacheMgr htype
              sDbCommand.pMessage clock.nSetTime
            rwa [hpre] at hmessage
        | answered _ _ mgr _ conn hpre hhandle hcode =>
            have hmessage := handle_without_message pb srv htype sDbCommand.pMessage
              st.m_dbConnection
            rwa [hhandle] at hmessage
  subst hnone
  exact fun h => nomatch h

/-- A nop of client 1, handled by a worker without a cache and answered at once. -/
def nopExchange : Exchange PlayerBase.runtime PlayerBase.FindMessageTypeByName
    (Server.constant (.done 0 1)) where
  proxy := CDbProxy.init
  action := .nop ⟨100, true⟩ 1 0 7 0
  pRequest :=
    { session_id := some 1
      associate_id := some 0
      type := some .kOT_NOP
      timeout := none
      content := some (packFrom PlayerBase.runtime .nop_command) }
  issued := rfl
  nServiceID := 7
  nTime := 100
  nThreadIndex := 0
  sDbCommand := ⟨7, .kOT_NOP, 1, 0, some .nop_command⟩
  accepted := by rfl
  th := CDbThread.init 0 1 ⟨true, (), 0, []⟩
  rest := []
  input := ⟨⟨101, 101⟩, ⟨[], 0⟩, 7⟩
  nErrorCode := .kRC_OK
  pMessage := none
  handled := rfl
  sResultInfo := ⟨7, ⟨1, 0, none, none⟩⟩
  added := rfl
  later := []
  info := CDbProxy.init.newInfo .kOT_NOP 1 none 7 0
  pending := by simp [Runs.run, CDbProxy.step, CDbProxy.nop, CDbProxy.request_r, CDbProxy.init]

/-- A plain `kRC_OK` is not delivered: the callback of the nop is called with
`kRC_PROTO_ERROR`. -/
theorem outcome_not_always_delivered :
    ¬ ∀ (σ : Type) (pb : Runtime) (generated_pool : String → Option Descriptor)
        (srv : Server σ), (pb.withPool generated_pool).Lawful →
      ∀ x : Exchange pb generated_pool srv, x.MessageKnown → x.Delivered := by
  intro h
  have hdelivered := h Unit PlayerBase.runtime PlayerBase.FindMessageTypeByName _
    PlayerBase.runtime_lawful nopExchange (fun _ h => nomatch h)
  have hcode := (nopExchange.delivered_iff_readResponse.mp hdelivered).1
  exact absurd hcode (by decide)

end Db
