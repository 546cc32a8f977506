import Aipass.Bridge.Lanes

/-!
# What waits in the channel

The channel has, of each lane, events of the response that runs, and at their end that it has
ended, if it has.
-/
namespace Aipass.Bridge

variable {serde : SerdeJson}

namespace World

/-- What waits in the channel for a lane. -/
def waitingOn (world : World) (lane : String) : List Output :=
  world.channel.filter fun output => output.lane = lane

/-- What waits for a lane comes from the response that runs. -/
def Flows (world : World) : Prop :=
  ∀ lane, ∃ values, world.waitingOn lane = values.map (.event lane) ++
      (world.running lane).elim [] (fun run => run.phase.last lane run.previousId) ∧
    (world.running lane = none → values = [])

namespace Flows

variable {world : World}

/-- What waits for a lane, when the first output is taken. -/
theorem waiting_cons {output : Output} {rest : List Output} (isChannel : world.channel = output :: rest)
    (lane : String) : world.waitingOn lane =
      (if output.lane = lane then [output] else []) ++ rest.filter fun held => held.lane = lane := by
  rw [waitingOn, isChannel, List.filter_cons]
  by_cases own : output.lane = lane <;> simp [own]

/-- What waits for the other lanes stays when the first output is taken. -/
theorem others {output : Output} {rest : List Output} (flows : world.Flows)
    (isChannel : world.channel = output :: rest) {lane : String} (apart : lane ≠ output.lane) :
    ∃ values : List Value, rest.filter (fun held => held.lane = lane) = values.map (.event lane) ++
      (world.running lane).elim [] (fun run => run.phase.last lane run.previousId) ∧
        (world.running lane = none → values = []) := by
  have waiting := flows lane
  rwa [waiting_cons isChannel, if_neg (Ne.symm apart), List.nil_append] at waiting

/-- What waits for the lane of the first output, before it is taken. -/
theorem own {output : Output} {rest : List Output} (flows : world.Flows)
    (isChannel : world.channel = output :: rest) {run : Run}
    (isRun : world.running output.lane = some run) : ∃ values : List Value,
      output :: rest.filter (fun held => held.lane = output.lane) =
        values.map (.event output.lane) ++ run.phase.last output.lane run.previousId := by
  obtain ⟨values, isWaiting, -⟩ := flows output.lane
  rw [waiting_cons isChannel, isRun, if_pos rfl, List.singleton_append, Option.elim_some]
    at isWaiting
  exact ⟨values, isWaiting⟩

/-- An event that is taken is the first of those that wait. -/
theorem passing (flows : world.Flows) {lane : String} {value : Value} {rest : List Output}
    {run : Run} (isChannel : world.channel = .event lane value :: rest)
    (isRun : world.running lane = some run) : ∃ values : List Value,
      rest.filter (fun held => held.lane = lane) =
        values.map (.event lane) ++ run.phase.last lane run.previousId := by
  obtain ⟨values, isWaiting⟩ := flows.own isChannel isRun
  simp only [Output.lane_event] at isWaiting
  cases values with
  | nil =>
    rw [List.map_nil, List.nil_append] at isWaiting
    unfold Phase.last at isWaiting
    split at isWaiting
    · cases (List.cons.inj isWaiting).1
    · cases isWaiting
  | cons first others => exact ⟨others, (List.cons.inj isWaiting).2⟩

/-- When the end of a response is taken, it is that of the response that runs, and the channel has
nothing left of its lane. -/
theorem finishing (flows : world.Flows) {lane : String} {previousId : Option String}
    {ending : Ending} {rest : List Output} {run : Run}
    (isChannel : world.channel = .finished lane previousId ending :: rest)
    (isRun : world.running lane = some run) : run.phase = .done ending ∧
      rest.filter (fun held => held.lane = lane) = [] := by
  obtain ⟨values, isWaiting⟩ := flows.own isChannel isRun
  simp only [Output.lane_finished] at isWaiting
  cases values with
  | nil =>
    rw [List.map_nil, List.nil_append] at isWaiting
    unfold Phase.last at isWaiting
    split at isWaiting
    · rename_i ending' isPhase
      obtain ⟨same, isRest⟩ := List.cons.inj isWaiting
      cases same
      exact ⟨isPhase, isRest⟩
    · cases isWaiting
  | cons first others =>
    obtain ⟨same, -⟩ := List.cons.inj isWaiting
    cases same

/-- A task that goes on has not ended. -/
theorem open_of_advance {run : Run} {route : List Target} {input : Input} {phase : Phase}
    {events : List Value} (advanced : run.Advances serde route input phase events)
    (lane : String) : run.phase.last lane run.previousId = [] := by
  cases advanced <;> rename_i isPhase <;> simp only [*, Phase.last]

/-- What flows is kept by every step. -/
theorem move (flows : world.Flows) (ordered : world.Ordered) {action : Action} {next : World}
    (moved : world.Move serde action next) : next.Flows := by
  cases moved with
  | note => exact flows
  | accept => exact flows
  | reject => exact flows
  | @launch id request session prepared taken isPrepared =>
    obtain ⟨-, found, -, -⟩ := Session.next_eq_some taken
    have idle := ordered.idle (Session.takeFree_eq_some found).1
    intro lane
    obtain ⟨values, isWaiting, nothing⟩ := flows lane
    by_cases own : lane = request.lane
    · subst own
      rw [idle] at isWaiting
      simp only [Function.update_self]
      exact ⟨values, isWaiting, fun impossible => by cases impossible⟩
    · simp only [Function.update_of_ne own]
      exact ⟨values, isWaiting, nothing⟩
  | @advance lane input run phase events isRun advanced =>
    intro other
    obtain ⟨values, isWaiting, nothing⟩ := flows other
    by_cases own : other = lane
    · subst own
      refine ⟨values ++ events, ?_, fun impossible => ?_⟩
      · rw [isRun, Option.elim_some, open_of_advance advanced, List.append_nil] at isWaiting
        have last : (phase.last other run.previousId).filter (fun held => held.lane = other) =
            phase.last other run.previousId := by
          unfold Phase.last
          split <;> simp
        have sent : (events.map (Output.event other)).filter (fun held => held.lane = other) =
            events.map (Output.event other) := by
          simp [List.filter_eq_self]
        simp only [waitingOn, List.filter_append, Function.update_self, Option.elim_some,
          List.map_append, last, sent]
        rw [← isWaiting]
        rfl
      · simp only [Function.update_self] at impossible
        cases impossible
    · refine ⟨values, ?_, fun idle => nothing ?_⟩
      · have last : (phase.last lane run.previousId).filter (fun held => held.lane = other) = [] := by
          unfold Phase.last
          split <;> simp [Ne.symm own]
        have sent : (events.map (Output.event lane)).filter (fun held => held.lane = other) = [] := by
          simp [Ne.symm own, List.filter_eq_nil_iff]
        simp only [waitingOn, List.filter_append, Function.update_of_ne own, last, sent,
          List.append_nil]
        exact isWaiting
      · simpa only [Function.update_of_ne own] using idle
  | @event lane value rest run isChannel isRun =>
    intro other
    by_cases own : other = lane
    · subst own
      obtain ⟨values, isRest⟩ := flows.passing isChannel isRun
      refine ⟨values, ?_, fun impossible => ?_⟩
      · simp only [waitingOn, Function.update_self, Option.elim_some]
        exact isRest
      · simp only [Function.update_self] at impossible
        cases impossible
    · simp only [waitingOn, Function.update_of_ne own]
      exact flows.others isChannel own
  | @finish lane previousId ending rest run isChannel isRun =>
    intro other
    by_cases own : other = lane
    · subst own
      refine ⟨[], ?_, fun _ => rfl⟩
      simp only [waitingOn, Function.update_self]
      exact (flows.finishing isChannel isRun).2
    · simp only [waitingOn, Function.update_of_ne own]
      exact flows.others isChannel own

end Flows
end World
end Aipass.Bridge
