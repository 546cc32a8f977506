import Aipass.Accounting.Permits

/-!
# The account of a native WebSocket is exact

Every request that the session accepts leaves one record, by the event that ends its response or
when the connection ends, and holds its permits until then. An event is traced to the request that
it finishes. The upstream sends no error without an identifier for a response at work while another
request waits on its lane: such an error is traced to the one at work and finishes the other.
-/
namespace Aipass.Accounting

open Websocket (StatusCode)
open Proxy (Instant TokenUsage)

/-- What holds of a request that is not finished. -/
structure Unfinished (creates : List Create) (log : List Handled) (request : ResponseUsage) :
    Prop where
  create : ∃ create ∈ creates, create.id = request.requestId ∧ create.model = request.model
  unended : log.filter (Handled.ends request.requestId) = []
  trace : request.trace =
    (log.filter fun handled => handled.owner = some request.requestId).map Handled.value

namespace World

/-- The record of a request tells how it ended: by the one event that ended its response, or by the
end of the connection if there was none. -/
def Tells (world : World) (record : UsageRecord) : Prop :=
  ∃ create ∈ world.creates, create.id = record.id ∧
    ((∃ value, (world.log.filter (Handled.ends record.id)).map Handled.value = [value] ∧
        record.model = modelAt value create.model ∧ record.usage = usageAt value ∧
        record.status = statusAt value ∧ record.success = some (outcomeAt value)) ∨
      (world.closed = true ∧ world.log.filter (Handled.ends record.id) = [] ∧
        record.model = create.model ∧ record.usage = noUsage ∧ record.status = 502))

/-- The requests that have a record or are not finished. -/
def known (world : World) : List Uuid :=
  world.account.records.map UsageRecord.id ++
    world.account.session.live.map ResponseUsage.requestId

/-- The account of a connection is exact. -/
structure Exact (world : World) : Prop where
  distinct : (world.creates.map Create.id).Nodup
  /-- Every request accepted has one record or is not finished. -/
  once : world.known.Perm (world.creates.map Create.id)
  tells : ∀ record ∈ world.account.records, world.Tells record
  unfinished : ∀ request ∈ world.account.session.live, Unfinished world.creates world.log request
  /-- An event is traced to the request that it is about, and finishes that one or none. -/
  traced : ∀ handled ∈ world.log, handled.traced = handled.owner ∧
    handled.finished =
      if finishes (kindOf handled.value) then handled.owner.toList else []
  /-- When the connection has ended, every request is finished. -/
  ended : world.closed = true → world.account.session.live = []
  /-- The requests that are not finished hold their permits, and no others do. -/
  permitted : Permitted world.account.shared world.others world.drawn world.forgotten
    world.account.session.live

/-- What holds in every run. -/
structure Sound (world : World) : Prop extends Exact world where
  matched : world.closed = false → Matched world.account.session world.upstream
  owners : ∀ handled ∈ world.log, ∀ id, handled.owner = some id → id ∈ world.creates.map Create.id

/-- Whether the upstream sends no error that could be of either of two requests. -/
def Clear (world : World) : Action → Prop
  | .server value _ => world.upstream.ambiguous value = false
  | _ => True

namespace Sound

variable {world : World}

/-- A connection starts sound. -/
theorem opened (opened : world.Opened) : world.Sound := by
  have noLive : world.account.session.live = [] := by
    rw [SessionUsage.live, opened.noActive, opened.noPending]
    rfl
  refine ⟨⟨?_, ?_, ?_, ?_, ?_, fun _ => noLive, ?_⟩, fun _ => ?_, ?_⟩
  · rw [opened.noCreates]
    exact List.nodup_nil
  · rw [known, opened.noRecords, noLive, opened.noCreates]
    exact .refl _
  · rw [opened.noRecords]
    exact fun record none_ => by cases none_
  · rw [noLive]
    exact fun request none_ => by cases none_
  · rw [opened.noLog]
    exact fun handled none_ => by cases none_
  · obtain ⟨inFlight, target, provider⟩ := opened.others
    rw [noLive, opened.noDrawn]
    refine ⟨⟨inFlight, target, provider⟩, fun _ none_ => ?_, fun _ none_ => ?_, List.nodup_nil,
      fun _ _ none_ => ?_, fun _ none_ => ?_⟩ <;> cases none_
  · rw [opened.upstream]
    refine ⟨by rw [opened.noPending]; rfl, by rw [opened.noActive]; rfl, ?_, ?_, ?_⟩
    · rw [opened.noActive]
      exact List.nodup_nil
    · rw [opened.noActive]
      exact List.nodup_nil
    · rw [opened.noActive, opened.noPending]
      exact Nat.zero_le _
  · rw [opened.noLog]
    exact fun handled none_ => by cases none_

/-- A request that was not known has neither been owned nor ended. -/
theorem unowned (sound : world.Sound) {id : Uuid} (fresh : id ∉ world.creates.map Create.id) :
    world.log.filter (fun handled => handled.owner = some id) = [] ∧
      world.log.filter (Handled.ends id) = [] := by
  constructor
  · refine List.filter_eq_nil_iff.mpr fun handled inside => ?_
    simpa using fun owned => fresh (sound.owners handled inside id owned)
  · refine List.filter_eq_nil_iff.mpr fun handled inside => ?_
    rw [Handled.ends, decide_eq_true_eq]
    exact fun owned => fresh (sound.owners handled inside id owned.1)

/-- A step of a client keeps the account exact. -/
theorem client (sound : world.Sound) (isOpen : world.closed = false) {value : Value} {now : Instant}
    {requestId probe : Uuid} {limit : Option ℕ} (fresh : requestId ∉ world.creates.map Create.id)
    (drawn : probe ∉ world.drawn) (unset : world.account.shared.probeId ≠ some probe) :
    (world.client value now requestId probe limit).Sound := by
  have matched := sound.matched isOpen
  have drew := sound.permitted.draw unset
  have asked := asked_clientEvent world.account.session world.account.shared now probe limit
    requestId value
  unfold World.client
  simp only
  generalize world.account.session.clientEvent world.account.shared now probe limit requestId value
    = result at asked
  cases asked with
  | ignored other =>
    simp only [if_neg other]
    exact ⟨⟨sound.distinct, sound.once, sound.tells, sound.unfinished, sound.traced, sound.ended,
      drew⟩, fun _ => matched, sound.owners⟩
  | rejected steady =>
    exact ⟨⟨sound.distinct, sound.once, sound.tells, sound.unfinished, sound.traced, sound.ended,
      drew.steady steady⟩, fun _ => matched, sound.owners⟩
  | @accepted next request isCreate room isId isLane isModel noTrace counts given =>
    simp only [if_pos isCreate]
    have live : ({ world.account.session with
        pending := world.account.session.pending ++ [request] } : SessionUsage).live.Perm
          (request :: world.account.session.live) := by
      rw [SessionUsage.live, SessionUsage.live, ← List.append_assoc]
      exact List.perm_append_singleton _ _
    have more (id : Uuid) (inside : id ∈ world.creates.map Create.id) :
        id ∈ (world.creates ++ [Create.mk requestId value]).map Create.id := by
      rw [List.map_append]
      exact List.mem_append_left _ inside
    obtain ⟨unowned, unended⟩ := sound.unowned fresh
    refine ⟨⟨?_, ?_, ?_, ?_, sound.traced, fun closed => ?_, ?_⟩, fun _ => ?_, ?_⟩
    · rw [List.map_append, List.map_cons, List.map_nil]
      refine List.nodup_append.mpr ⟨sound.distinct, List.nodup_singleton _, ?_⟩
      rintro id inside other single rfl
      rw [List.mem_singleton.mp single] at inside
      exact fresh inside
    · have order : (world.account.records.map UsageRecord.id ++ requestId ::
          world.account.session.live.map ResponseUsage.requestId).Perm
          (world.creates.map Create.id ++ [requestId]) :=
        List.perm_middle.trans ((sound.once.cons requestId).trans
          (List.perm_append_singleton _ _).symm)
      rw [World.known, List.map_append, List.map_cons, List.map_nil]
      refine .trans (.append_left _ (live.map _)) ?_
      rw [List.map_cons, isId]
      exact order
    · intro record inside
      obtain ⟨create, held, isCreated, told⟩ := sound.tells record inside
      exact ⟨create, List.mem_append_left _ held, isCreated, told⟩
    · intro other inside
      obtain rfl | inside := List.mem_cons.mp (live.mem_iff.mp inside)
      · rw [← isId] at unowned unended
        refine ⟨⟨_, List.mem_append_right _ (List.mem_singleton_self _), isId.symm, isModel.symm⟩,
          unended, ?_⟩
        rw [noTrace, unowned]
        rfl
      · obtain ⟨⟨create, held, isCreated⟩, unended, trace⟩ := sound.unfinished other inside
        exact ⟨⟨create, List.mem_append_left _ held, isCreated⟩, unended, trace⟩
    · rw [isOpen] at closed
      cases closed
    · refine (sound.permitted.enter drawn (counts _ _ sound.permitted.counts) ?_).congr
        (live.symm.map _)
      obtain ⟨isActivity, same⟩ | given := given
      · exact .inl ⟨isActivity, same, unset⟩
      · exact .inr given
    · refine ⟨?_, matched.running, matched.lanes, matched.ids, ?_⟩
      · rw [List.map_append, matched.queued, List.map_cons, List.map_nil, waitingLabel, isId, isLane]
      · change world.account.session.active.length +
          (world.account.session.pending ++ [request]).length ≤ _
        rw [List.length_append, List.length_singleton]
        omega
    · exact fun handled inside id owned => more id (sound.owners handled inside id owned)

/-- A request that is not finished is neither another one nor one with a record. -/
theorem apart (sound : world.Sound) {request : ResponseUsage} {rest : List ResponseUsage}
    (before : world.account.session.live.Perm (request :: rest)) :
    (∀ other ∈ rest, other.requestId ≠ request.requestId) ∧
      ∀ record ∈ world.account.records, record.id ≠ request.requestId := by
  have order : world.known.Perm
      (request.requestId :: (world.account.records.map UsageRecord.id ++
        rest.map ResponseUsage.requestId)) :=
    (List.Perm.append_left _ (before.map _)).trans List.perm_middle
  have distinct := (order.symm.trans sound.once).nodup_iff.mpr sound.distinct
  obtain ⟨alone, -⟩ := List.nodup_cons.mp distinct
  refine ⟨fun other inside same => ?_, fun record inside same => ?_⟩
  · exact alone (List.mem_append_right _ (same ▸ List.mem_map_of_mem inside))
  · exact alone (List.mem_append_left _ (same ▸ List.mem_map_of_mem inside))

end Sound

section Log

variable {creates : List Create} {log : List Handled} {handled : Handled}

/-- An event about another request is not about one. -/
theorem filter_ends_of_ne {id : Uuid} (other : handled.owner ≠ some id) :
    (log ++ [handled]).filter (Handled.ends id) = log.filter (Handled.ends id) := by
  have ignored : Handled.ends id handled = false := by simp [Handled.ends, other]
  rw [List.filter_append, List.filter_cons_of_neg (by simp [ignored]), List.filter_nil,
    List.append_nil]

/-- A request stays as it is by an event about another one. -/
theorem unfinished_other {request : ResponseUsage}
    (unfinished : Unfinished creates log request)
    (other : handled.owner ≠ some request.requestId) :
    Unfinished creates (log ++ [handled]) request := by
  refine ⟨unfinished.create, by rw [filter_ends_of_ne other, unfinished.unended], ?_⟩
  rw [List.filter_append, List.filter_cons_of_neg (by simpa using other), List.filter_nil,
    List.append_nil, unfinished.trace]

end Log

namespace Sound

variable {world : World} {value : Value} {now : Instant}

/-- A record stays as it was told by an event about another request. -/
theorem tells_other (sound : world.Sound) {next : World} (handled : Handled)
    (creates : next.creates = world.creates) (log : next.log = world.log ++ [handled])
    (closed : next.closed = world.closed) {record : UsageRecord}
    (inside : record ∈ world.account.records) (other : handled.owner ≠ some record.id) :
    next.Tells record := by
  obtain ⟨create, held, isCreate, told⟩ := sound.tells record inside
  refine ⟨create, creates ▸ held, isCreate, ?_⟩
  rw [log, closed, filter_ends_of_ne other]
  exact told

/-- An event of the upstream keeps the account exact. -/
theorem server (sound : world.Sound) (isOpen : world.closed = false)
    (emits : world.upstream.emits value = true) (clear : world.upstream.ambiguous value = false) :
    (world.server value now).Sound := by
  obtain ⟨matched, isTraced, served⟩ :=
    (sound.matched isOpen).serverEvent now emits clear
  unfold World.server
  simp only [isTraced]
  generalize world.upstream.owner (laneOf value) = owner at served ⊢
  generalize account : world.account = before at served matched ⊢
  generalize before.serverEvent now value = after at served matched ⊢
  have owners : ∀ handled ∈ world.log, ∀ id, handled.owner = some id →
      id ∈ world.creates.map Create.id := sound.owners
  have isTold (finished : List Uuid)
      (same : finished = if finishes (kindOf value) then owner.toList else []) :
      ∀ handled ∈ world.log ++ [Handled.mk value owner owner finished],
        handled.traced = handled.owner ∧ handled.finished =
          if finishes (kindOf handled.value) then handled.owner.toList else [] := by
    intro handled inside
    obtain earlier | isLast := List.mem_append.mp inside
    · exact sound.traced handled earlier
    · obtain rfl := List.mem_singleton.mp isLast
      exact ⟨rfl, same⟩
  cases served with
  | ignored _ =>
    subst account
    simp only [List.drop_length, List.map_nil]
    have isNone (id : Uuid) : (none : Option Uuid) ≠ some id := fun impossible => by cases impossible
    refine ⟨⟨sound.distinct, sound.once, fun record inside => ?_, fun request inside => ?_,
      isTold [] (by simp), sound.ended, sound.permitted⟩, fun _ => matched, ?_⟩
    · exact sound.tells_other ⟨value, none, none, []⟩ (by rfl) (by rfl) (by rfl) inside (isNone _)
    · exact unfinished_other (sound.unfinished request inside) (isNone _)
    · intro handled inside id owned
      obtain earlier | isLast := List.mem_append.mp inside
      · exact owners handled earlier id owned
      · obtain rfl := List.mem_singleton.mp isLast
        cases owned
  | @kept _ session request follows rest goesOn isLive isFollowed isKept =>
    subst account
    obtain ⟨others, records⟩ := sound.apart isLive
    have isRequest : request ∈ world.account.session.live := isLive.mem_iff.mpr List.mem_cons_self
    obtain ⟨⟨create, held, isCreate, isModel⟩, unended, trace⟩ := sound.unfinished request isRequest
    simp only [List.drop_length, List.map_nil]
    have labels : (follows :: rest).map ResponseUsage.requestId =
        (request :: rest).map ResponseUsage.requestId := by
      rw [List.map_cons, List.map_cons, isFollowed.requestId]
    have guards : (request :: rest).map ResponseUsage.activity =
        (follows :: rest).map ResponseUsage.activity := by
      rw [List.map_cons, List.map_cons, isFollowed.activity]
    refine ⟨⟨sound.distinct, ?_, fun record inside => ?_, fun other inside => ?_,
      isTold [] (by simp [goesOn]), fun closed => ?_, ?_⟩, fun _ => matched, ?_⟩
    · refine .trans (.append_left _ ((isKept.map _).trans ?_)) sound.once
      rw [labels]
      exact (isLive.map _).symm
    · exact sound.tells_other ⟨value, some request.requestId, some request.requestId, []⟩ (by rfl)
        (by rfl) (by rfl) inside fun same => records record inside (Option.some.inj same).symm
    · obtain rfl | inside := List.mem_cons.mp (isKept.mem_iff.mp inside)
      · refine ⟨⟨create, held, isCreate.trans isFollowed.requestId.symm,
          isModel.trans isFollowed.model.symm⟩, ?_, ?_⟩
        · rw [isFollowed.requestId, List.filter_append, unended, List.nil_append,
            List.filter_cons_of_neg (by simp [Handled.ends, goesOn]), List.filter_nil]
        · rw [isFollowed.requestId, List.filter_append, List.map_append, ← trace,
            List.filter_cons_of_pos (by simp), isFollowed.trace]
          rfl
      · have isOther : other ∈ world.account.session.live :=
          isLive.mem_iff.mpr (List.mem_cons_of_mem _ inside)
        exact unfinished_other (sound.unfinished other isOther) fun same =>
          others other inside (Option.some.inj same).symm
    · have none_ := sound.ended closed
      rw [none_] at isRequest
      cases isRequest
    · refine (sound.permitted.congr ?_).congr (isKept.map _).symm
      rw [← guards]
      exact isLive.map _
    · intro handled inside id owned
      obtain earlier | isLast := List.mem_append.mp inside
      · exact owners handled earlier id owned
      · obtain rfl := List.mem_singleton.mp isLast
        cases owned
        exact isCreate ▸ List.mem_map_of_mem held
  | @finished _ session request follows rest ends isLive isFollowed isRest =>
    subst account
    obtain ⟨others, records⟩ := sound.apart isLive
    have isRequest : request ∈ world.account.session.live := isLive.mem_iff.mpr List.mem_cons_self
    obtain ⟨⟨create, held, isCreate, isModel⟩, unended, trace⟩ := sound.unfinished request isRequest
    have added : (world.account.finishBy session now value follows).records =
        world.account.records ++ [{ follows with model := modelAt value follows.model }.record now
          (usageAt value) (statusAt value) (some (outcomeAt value))] := rfl
    have finished : (((world.account.finishBy session now value follows).records.drop
        world.account.records.length).map UsageRecord.id) = [request.requestId] := by
      rw [added, List.drop_left, List.map_cons, List.map_nil]
      exact congrArg (fun id => [id]) isFollowed.requestId
    have endedNow : (world.log ++ [Handled.mk value (some request.requestId)
        (some request.requestId) [request.requestId]]).filter (Handled.ends request.requestId) =
          [Handled.mk value (some request.requestId) (some request.requestId)
            [request.requestId]] := by
      rw [List.filter_append, unended, List.nil_append,
        List.filter_cons_of_pos (by simp [Handled.ends, ends]), List.filter_nil]
    simp only [finished]
    refine ⟨⟨sound.distinct, ?_, fun record inside => ?_, fun other inside => ?_,
      isTold _ (by simp [ends]), fun closed => ?_, ?_⟩, fun _ => matched, ?_⟩
    · have order : (world.account.records.map UsageRecord.id ++
          request.requestId :: rest.map ResponseUsage.requestId).Perm
            (world.creates.map Create.id) :=
        (List.Perm.append_left _ (isLive.map _).symm).trans sound.once
      change (_ ++ session.live.map ResponseUsage.requestId).Perm _
      rw [added, List.map_append, List.append_assoc]
      refine .trans (.append_left _ (.append_left _ (isRest.map _))) ?_
      have same : ({ follows with model := modelAt value follows.model }.record now
          (usageAt value) (statusAt value) (some (outcomeAt value))).id = request.requestId :=
        isFollowed.requestId
      rw [List.map_cons, List.map_nil, same]
      exact order
    · rw [added] at inside
      obtain earlier | isLast := List.mem_append.mp inside
      · exact sound.tells_other ⟨value, some request.requestId, some request.requestId,
          [request.requestId]⟩ (by rfl) (by rfl) (by rfl) earlier fun same =>
            records record earlier (Option.some.inj same).symm
      · obtain rfl := List.mem_singleton.mp isLast
        have isId : follows.requestId = request.requestId := isFollowed.requestId
        refine ⟨create, held, isCreate.trans isId.symm, .inl ⟨value, ?_, ?_, rfl, rfl, rfl⟩⟩
        · change ((_ ++ [_]).filter (Handled.ends follows.requestId)).map Handled.value = [value]
          rw [isId, endedNow]
          rfl
        · change modelAt value follows.model = modelAt value create.model
          rw [isFollowed.model, isModel]
    · have inside : other ∈ rest := isRest.mem_iff.mp inside
      have isOther : other ∈ world.account.session.live :=
        isLive.mem_iff.mpr (List.mem_cons_of_mem _ inside)
      exact unfinished_other (sound.unfinished other isOther) fun same =>
        others other inside (Option.some.inj same).symm
    · have none_ := sound.ended closed
      rw [none_] at isRequest
      cases isRequest
    · have permitted : Permitted ({ world.account with session } : Account).shared world.others
          world.drawn world.forgotten (follows :: rest) := by
        refine sound.permitted.congr ((isLive.map _).trans ?_)
        rw [List.map_cons, List.map_cons, isFollowed.activity]
      exact (permitted.finish now _ _ _ _ _).congr (isRest.map _).symm
    · intro handled inside id owned
      obtain earlier | isLast := List.mem_append.mp inside
      · exact owners handled earlier id owned
      · obtain rfl := List.mem_singleton.mp isLast
        cases owned
        exact isCreate ▸ List.mem_map_of_mem held

/-- The requests that are finished when a connection ends leave a record each and let go of their
permits, one after another. -/
theorem finishAll (upstreamFailed : Bool) (now : Instant) {others : Share} {drawn : List Uuid}
    {forgotten : Bool} (unfinished : List ResponseUsage) (account : Account)
    (permitted : Permitted account.shared others drawn forgotten unfinished) :
    let ended := unfinished.foldl (fun account request => account.finish now request noUsage 502
      (if upstreamFailed then some false else none) true) account
    ended.session = account.session ∧
      ended.records = account.records ++ unfinished.map (fun request =>
        request.record now noUsage 502 (if upstreamFailed then some false else none)) ∧
      Permitted ended.shared others drawn forgotten [] := by
  induction unfinished generalizing account with
  | nil => exact ⟨rfl, (List.append_nil _).symm, permitted⟩
  | cons request rest ih =>
    have finished := permitted.finish now request.model noUsage 502
      (if upstreamFailed then some false else none) true
    obtain ⟨session, records, released⟩ := ih _ finished
    refine ⟨session, ?_, released⟩
    rw [List.foldl_cons, records, List.map_cons]
    exact List.append_assoc ..

/-- The end of the connection keeps the account exact. -/
theorem disconnect (sound : world.Sound) (upstreamFailed : Bool) (now : Instant) :
    Sound { world with
      account := world.account.disconnected now upstreamFailed, closed := true } := by
  obtain ⟨session, records, released⟩ := finishAll upstreamFailed now world.account.session.live
    { world.account with session := { world.account.session with active := [], pending := [] } }
    sound.permitted
  have noLive : (world.account.disconnected now upstreamFailed).session.live = [] := by
    have cleared : (world.account.disconnected now upstreamFailed).session =
        { world.account.session with active := [], pending := [] } := session
    rw [cleared]
    rfl
  have allRecords : (world.account.disconnected now upstreamFailed).records =
      world.account.records ++ world.account.session.live.map (fun request =>
        request.record now noUsage 502 (if upstreamFailed then some false else none)) := records
  refine ⟨⟨sound.distinct, ?_, fun record inside => ?_, ?_, sound.traced, fun _ => noLive, ?_⟩,
    fun isOpen => (by cases isOpen), sound.owners⟩
  · rw [known, noLive, List.map_nil, List.append_nil, allRecords, List.map_append, List.map_map]
    exact sound.once
  · simp only [allRecords] at inside
    obtain earlier | now_ := List.mem_append.mp inside
    · obtain ⟨create, held, isCreate, told⟩ := sound.tells record earlier
      refine ⟨create, held, isCreate, told.imp id ?_⟩
      rintro ⟨-, rest⟩
      exact ⟨rfl, rest⟩
    · obtain ⟨request, isLive, rfl⟩ := List.mem_map.mp now_
      obtain ⟨⟨create, held, isCreate, isModel⟩, unended, -⟩ := sound.unfinished request isLive
      exact ⟨create, held, isCreate, .inr ⟨rfl, unended, isModel.symm, rfl, rfl⟩⟩
  · rw [noLive]
    exact fun request none_ => by cases none_
  · rw [noLive]
    exact released

/-- What other requests do keeps the account exact. -/
theorem share (sound : world.Sound) {share : Share} {health : Option Proxy.TargetHealth}
    {affinities : Proxy.Affinities} (spares : world.sparesProbes health = true) :
    (world.share share health affinities).Sound := by
  refine ⟨⟨sound.distinct, sound.once, sound.tells, sound.unfinished, sound.traced, sound.ended, ?_⟩,
    sound.matched, sound.owners⟩
  have counts := sound.permitted.counts
  have isForgotten : health = none → (world.forgotten || health.isNone) = true := by
    rintro rfl
    exact Bool.or_true _
  refine sound.permitted.share ⟨?_, ?_, ?_⟩ ?_ fun known => (Bool.or_eq_false_iff.mp known).1
  · change world.account.shared.inFlightRequests - _ + _ = _
    rw [counts.inFlight]
    change _ = share.inFlightRequests + _
    omega
  · change world.account.shared.targetActivity - _ + _ = _
    rw [counts.target]
    change _ = share.targetActivity + _
    omega
  · change world.account.shared.providerActivity - _ + _ = _
    rw [counts.provider]
    change _ = share.providerActivity + _
    omega
  · simp only [sparesProbes, decide_eq_true_eq] at spares
    refine spares.imp Eq.symm fun apart => ⟨fun probe isProbe => ?_, fun probe isProbe => ?_⟩
    · have before := apart.1
      rw [isProbe, Option.all_some, decide_eq_true_eq] at before
      exact before.imp id isForgotten
    · have after := apart.2
      change health.bind Proxy.TargetHealth.probeId = some probe at isProbe
      rw [isProbe, Option.all_some, decide_eq_true_eq] at after
      exact after

/-- Every step keeps the account exact. -/
theorem step (sound : world.Sound) {action : Action} {next : World} (clear : world.Clear action)
    (stepped : world.step action = some next) : next.Sound := by
  cases action with
  | client value now requestId probe limit =>
    simp only [World.step, Option.ite_none_left_eq_some, not_or, Option.some.injEq,
      Bool.not_eq_true] at stepped
    obtain ⟨⟨isOpen, fresh, drawn, unset⟩, rfl⟩ := stepped
    exact sound.client isOpen fresh drawn unset
  | server value now =>
    simp only [World.step, Option.ite_none_left_eq_some, not_or, Option.some.injEq,
      Bool.not_eq_true, Bool.not_eq_false] at stepped
    obtain ⟨⟨isOpen, emits⟩, rfl⟩ := stepped
    exact sound.server isOpen emits clear
  | disconnect upstreamFailed now =>
    simp only [World.step, Option.ite_none_left_eq_some, Option.some.injEq] at stepped
    obtain ⟨-, rfl⟩ := stepped
    exact sound.disconnect upstreamFailed now
  | others share health affinities =>
    simp only [World.step, Option.ite_none_right_eq_some, Option.some.injEq] at stepped
    obtain ⟨spares, rfl⟩ := stepped
    exact sound.share spares

end Sound

/-- In every run in which the upstream sends no error that could be of either of two requests, the
account is exact. -/
theorem exact_of_reached {world : World} (reached : relay.Reachable Clear world) : world.Exact :=
  (reached.invariant Sound (fun _ => Sound.opened)
    fun _ _ _ sound clear stepped => sound.step clear stepped).toExact

end World

/-- A connection that has just been made. -/
def opened : World where
  account := { session := ⟨1, 1, ⟨3, 30⟩, none, [], []⟩, shared := {} }

/-- Runs start with it. -/
theorem opened_init : relay.init opened :=
  ⟨rfl, rfl, rfl, rfl, rfl, rfl, rfl, rfl, rfl, rfl, rfl⟩

/-- The client creates a response on the lane without a name. -/
def creates (id : Uuid) (model : String) : Action :=
  .client (.obj [("type", "response.create"), ("model", model)]) 0 id id none

/-- The upstream creates the response. -/
def created (responseId : String) : Action :=
  .server (.obj [("type", "response.created"), ("response", .obj [("id", responseId)])]) 0

/-- The upstream completes the response of a model. -/
def completed (responseId model : String) : Action :=
  .server (.obj [("type", "response.completed"),
    ("response", .obj [("id", responseId), ("model", model)])]) 0

/-- The upstream sends an error without an identifier. -/
def refused : Action := .server (.obj [("type", "error"), ("status", .nat 429)]) 0

/-- A step that sends no error that could be of either of two requests. -/
def World.clearStep (world : World) (action : Action) : Option World :=
  match action with
  | .server value _ => if world.upstream.ambiguous value then none else world.step action
  | _ => world.step action

/-- Such a step is one. -/
theorem World.clearStep_spec {world next : World} {action : Action}
    (stepped : world.clearStep action = some next) :
    world.Clear action ∧ world.step action = some next := by
  unfold World.clearStep at stepped
  split at stepped
  · split at stepped
    · cases stepped
    · rename_i clear
      exact ⟨Bool.eq_false_iff.mpr clear, stepped⟩
  · rename_i other
    refine ⟨?_, stepped⟩
    unfold World.Clear
    split
    · exact absurd rfl (other _ _)
    · trivial

/-- Two requests on a lane, the first of which an error ends. -/
theorem exact_of_two_requests : ∃ world, relay.Reachable World.Clear world ∧
    (world.account.records.map UsageRecord.status = [429, 200] ∧
      world.account.shared.inFlightRequests = 0) ∧ world.Exact := by
  have went : ((System.after World.clearStep opened
      [creates 1 "m", created "resp_1", refused, creates 2 "m", created "resp_2",
        completed "resp_2" "m"]).any fun world =>
      world.account.records.map UsageRecord.status = [429, 200] ∧
        world.account.shared.inFlightRequests = 0) = true := by
    decide +kernel
  simp only [Option.any_eq_true, decide_eq_true_eq] at went
  obtain ⟨world, went, facts⟩ := went
  have reached : relay.Reachable World.Clear world :=
    .after (fun _ _ _ stepped => World.clearStep_spec stepped) (.start opened_init) went
  exact ⟨world, reached, facts, World.exact_of_reached reached⟩

/-- An error without an identifier is traced to the response at work and finishes the request that
waits behind it, and a record has the model that the upstream reports. -/
theorem error_finishes_other :
    (¬∀ world, relay.Reached world → ∀ handled ∈ world.log, ∀ id ∈ handled.finished,
      handled.traced = some id) ∧
    ¬∀ world, relay.Reached world → ∀ record ∈ world.account.records,
      ∀ create ∈ world.creates, create.id = record.id → record.model = create.model := by
  constructor
  · intro always
    have went : ((System.after World.step opened
        [creates 1 "m", creates 2 "m", created "resp_1", refused]).any fun world =>
          ∃ handled ∈ world.log, 2 ∈ handled.finished ∧ handled.traced = some 1) = true := by
      decide +kernel
    simp only [Option.any_eq_true, decide_eq_true_eq] at went
    obtain ⟨world, went, handled, inside, finished, traced⟩ := went
    have reached : relay.Reached world :=
      .after (fun _ _ _ stepped => ⟨trivial, stepped⟩) (.start opened_init) went
    have same := always world reached handled inside 2 finished
    rw [traced] at same
    exact absurd same (by decide)
  · intro always
    have went : ((System.after World.step opened
        [creates 1 "m", created "resp_1", completed "resp_1" "m-2"]).any fun world =>
          ∃ record ∈ world.account.records, record.model = some "m-2" ∧
            ∃ create ∈ world.creates, create.id = record.id ∧ create.model = some "m") = true := by
      decide +kernel
    simp only [Option.any_eq_true, decide_eq_true_eq] at went
    obtain ⟨world, went, record, inside, isModel, create, held, isCreate, asked⟩ := went
    have reached : relay.Reached world :=
      .after (fun _ _ _ stepped => ⟨trivial, stepped⟩) (.start opened_init) went
    have same := always world reached record inside create held isCreate
    rw [isModel, asked] at same
    exact absurd same (by decide)

end Aipass.Accounting
