import Aipass.Replay.Order

/-!
# A body that is spilled and tried twice

A request for a plain target inspects its body three times and is tried twice; the first upload is
given up once it has started. When it stays away, the second upload sends the whole body. When it
reads one byte more after the second upload went back to the start, that byte is lost.
-/
namespace Aipass.Replay

open SharedFile Conversion

namespace World

instance (world : World) (label : Label) : Decidable (world.Clear label) := by
  unfold Clear
  split
  · split
    · infer_instance
    · infer_instance
  · infer_instance

/-- A step in which no reader that was given up disturbs the pass of a later one. -/
def clearStep (adapters : Adapters) (world : World) (label : Label) : Option World :=
  if world.Clear label then world.step adapters label else none

/-- A series of such steps is a run of such steps. -/
theorem reachable_of_after {adapters : Adapters} {original : Bytes} {labels : List Label}
    {world next : World} (reached : (system adapters original).Reachable Clear world)
    (went : System.after (clearStep adapters) world labels = some next) :
    (system adapters original).Reachable Clear next := by
  apply reached.after _ went
  intro state label later stepped
  rw [clearStep] at stepped
  split at stepped
  · next clear => exact ⟨clear, stepped⟩
  · cases stepped

end World

/-- Adapters for a body that is no JSON, which no plain target uses. -/
def plainAdapters : Adapters where
  parse _ := none
  stream _ := none
  print _ := []
  convertRequest _ _ value := .ok value
  provider _ _ bytes := .ok bytes
  codex bytes := .ok bytes
  grok value := .ok value

/-- A target that takes requests as they are. -/
def plainTarget : UploadTarget := ⟨.generic, .standard, none, none, none⟩

/-- A route to it. -/
def plainRoute : UploadRoute :=
  ⟨false, .openAiResponses, .openAiResponses, [plainTarget]⟩

/-- Surroundings in which preparing a request meets no error. -/
def calm : Surroundings := ⟨none, none, none, none, .ok⟩

section Run

variable {original : Bytes} {cursor : ℕ} {readers : List (Reader UInt8)} {purpose : Purpose}
  {agenda : List Purpose} {tasks : List Task}

/-- A request with its body in a file. -/
def spilled (original : Bytes) (cursor : ℕ) (readers : List (Reader UInt8)) (agenda : List Purpose)
    (tasks : List Task) : World :=
  ⟨plainRoute, .conversation, .file ⟨original, cursor, readers⟩ original.length, agenda, tasks,
    false⟩

/-- An inspection that finds no JSON in the first bytes. -/
def refused (index : ℕ) : List Label :=
  [.inspect, .access index .seek, .access index (.read 8192), .access index .fail]

/-- An upload that starts. -/
def started (index : ℕ) : List Label := [.attempt plainTarget calm, .access index .seek]

/-- The attempt of a plain upload. -/
def plainAttempt (length : ℕ) : Attempt := ⟨plainTarget, calm, ⟨none, length⟩⟩

/-- What a refused inspection leaves. -/
theorem after_refused (some_ : original ≠ [])
    (idle : (spilled original cursor readers (purpose :: agenda) tasks).idle = true) :
    System.after (World.clearStep plainAdapters)
        (spilled original cursor readers (purpose :: agenda) tasks) (refused readers.length) =
      some (spilled original (min 8192 original.length)
        (readers.map Reader.leave ++ [⟨.failed, original.take 8192, false⟩]) agenda
        (tasks ++ [⟨purpose, .reader readers.length, none⟩])) := by
  rw [spilled] at idle
  simp [refused, System.after, World.clearStep, World.Clear, File.Undisturbed, World.step, spilled,
    idle, World.read, File.clone, File.access, File.served, File.bytes, File.moved, Reader.finished,
    some_]

/-- What an upload that starts leaves. -/
theorem after_started (idle : (spilled original cursor readers [] tasks).idle = true) :
    System.after (World.clearStep plainAdapters) (spilled original cursor readers [] tasks)
        (started readers.length) =
      some (spilled original 0 (readers.map Reader.leave ++ [⟨.reading, [], false⟩]) []
        (tasks ++ [⟨.upload, .reader readers.length, some (plainAttempt original.length)⟩])) := by
  have prepares : (spilled original cursor readers [] tasks).prepare plainAdapters plainTarget calm =
      .ok ⟨none, original.length⟩ := rfl
  rw [spilled] at idle prepares
  simp [started, System.after, World.clearStep, World.Clear, File.Undisturbed, World.step, spilled,
    idle, prepares, World.send, World.read, File.clone, File.access, File.served, File.moved,
    plainAttempt]

/-- What the last reader does to the end. -/
theorem after_finished (front : List (Reader UInt8)) (some_ : original ≠ []) :
    System.after (World.clearStep plainAdapters)
        (spilled original 0 (front ++ [⟨.reading, [], false⟩]) [] tasks)
        [.access front.length (.read original.length),
          .access front.length (.read original.length)] =
      some (spilled original original.length (front ++ [⟨.ended, original, false⟩]) [] tasks) := by
  have positive : 0 < original.length := List.length_pos_iff.mpr some_
  simp [System.after, World.clearStep, World.Clear, File.Undisturbed, World.step, spilled,
    File.access, File.served, File.bytes, File.moved, positive, some_]

/-- What an upload that was given up does to the pass of the last reader. -/
theorem after_lost {front : List (Reader UInt8)} (two : 2 ≤ original.length) :
    System.after (World.step plainAdapters)
        (spilled original 0 (front ++ [⟨.reading, [], true⟩, ⟨.reading, [], false⟩]) [] tasks)
        [.access front.length (.read 1), .access (front.length + 1) (.read original.length),
          .access (front.length + 1) (.read original.length)] =
      some (spilled original original.length
        (front ++ [⟨.reading, original.take 1, true⟩, ⟨.ended, original.drop 1, false⟩]) []
        tasks) := by
  have some_ : original ≠ [] := by
    rintro rfl
    cases two
  have positive : 0 < original.length := List.length_pos_iff.mpr some_
  have rest : ¬ original.length ≤ 1 := Nat.not_le.mpr two
  have whole : 1 + (original.length - 1) = original.length := by omega
  have least : min 1 original.length = 1 := Nat.min_eq_left positive
  have taken : original.tail.take original.length = original.tail :=
    List.take_of_length_le (by simp)
  simp [System.after, World.step, spilled, File.access, File.served, File.bytes, File.moved,
    positive, some_, rest, whole, least, taken]

/-- The reader of an inspection that found no JSON. -/
def refusedReader (original : Bytes) : Reader UInt8 := ⟨.failed, original.take 8192, false⟩

/-- The tasks of a request that is tried a second time. -/
def twoAttempts (original : Bytes) : List Task :=
  [⟨.gateway, .reader 0, none⟩, ⟨.metadata, .reader 1, none⟩, ⟨.summary, .reader 2, none⟩,
    ⟨.upload, .reader 3, some (plainAttempt original.length)⟩,
    ⟨.upload, .reader 4, some (plainAttempt original.length)⟩]

/-- A request that is tried a second time, both uploads just started. -/
theorem reachable_twoAttempts (large : requestBodyMemoryThreshold < original.length)
    (fits : original.length ≤ maxRequestBodyBytes) :
    (World.system plainAdapters original).Reachable World.Clear
      (spilled original 0 ([refusedReader original, refusedReader original,
        refusedReader original] ++ [⟨.reading, [], true⟩, ⟨.reading, [], false⟩]) []
        (twoAttempts original)) := by
  have some_ : original ≠ [] := by
    rintro rfl
    cases large
  have fresh : (ReplayableRequestBody.file ⟨original, original.length, []⟩ original.length).Fresh
      original := .received (by simp [sentBytes]) (read_spilled large fits)
  have start : (World.system plainAdapters original).Reachable World.Clear
      (spilled original original.length [] [.gateway, .metadata, .summary] []) :=
    .start ⟨plainRoute, .conversation, _, fresh, rfl⟩
  have first := World.reachable_of_after start (after_refused some_ rfl)
  have second := World.reachable_of_after first (after_refused some_ rfl)
  have third := World.reachable_of_after second (after_refused some_ rfl)
  have upload := World.reachable_of_after third (after_started rfl)
  exact World.reachable_of_after upload (after_started rfl)

end Run

/-- A body that exceeds the threshold. -/
def largeBody : Bytes := List.replicate (requestBodyMemoryThreshold + 1) 0

/-- Its length. -/
theorem length_largeBody : largeBody.length = requestBodyMemoryThreshold + 1 :=
  List.length_replicate

/-- A body that exceeds the threshold is read. -/
theorem large_fits : largeBody.length ≤ maxRequestBodyBytes := by
  rw [length_largeBody]
  decide

/-- A body that exceeds the threshold is spilled. -/
theorem large_spilled : requestBodyMemoryThreshold < largeBody.length := by
  rw [length_largeBody]
  exact Nat.lt_succ_self _

/-- An upload misses the byte that the upload before it still took, although as many bytes as the
body has are announced. -/
theorem upload_misses_byte : ∃ world,
    (World.system plainAdapters largeBody).Reached world ∧ ∃ task ∈ world.tasks,
      world.abandoned task = false ∧ world.complete task = true ∧
        task.attempt = some (plainAttempt largeBody.length) ∧
        world.got task = largeBody.drop 1 ∧ ¬ world.Whole plainAdapters largeBody task := by
  have two : 2 ≤ largeBody.length := Nat.le_trans (by decide) large_spilled
  have reached := (reachable_twoAttempts large_spilled large_fits).mono fun _ _ _ => trivial
  have steps : ∀ state label next, World.step plainAdapters state label = some next →
      True ∧ (World.system plainAdapters largeBody).step state label next :=
    fun _ _ _ stepped => ⟨trivial, stepped⟩
  refine ⟨_, reached.after steps (after_lost two), _, List.mem_of_getLast? rfl, rfl, rfl, rfl, rfl, ?_⟩
  intro whole
  have same : largeBody.drop 1 = largeBody := whole.2.2.1 rfl
  have lengths := congrArg List.length same
  rw [List.length_drop] at lengths
  omega

/-- A body that is tried twice is whole when the first upload stays away. -/
theorem passes_whole_twice : ∃ world,
    (World.system plainAdapters largeBody).Reachable World.Clear world ∧
      (∃ task ∈ world.tasks, world.complete task = true ∧
        task.attempt = some (plainAttempt largeBody.length)) ∧
      ∀ task ∈ world.tasks, world.abandoned task = false →
        world.Whole plainAdapters largeBody task := by
  have some_ : largeBody ≠ [] := List.length_pos_iff.mp (Nat.zero_lt_of_lt large_spilled)
  have started := reachable_twoAttempts large_spilled large_fits
  have finished := World.reachable_of_after started (after_finished [_, _, _, _] some_)
  exact ⟨_, finished, ⟨_, List.mem_of_getLast? rfl, rfl, rfl⟩,
    World.passes_whole plainAdapters largeBody _ finished⟩

end Aipass.Replay
