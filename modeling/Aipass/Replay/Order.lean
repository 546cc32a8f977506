import Aipass.Replay.Uploads

/-!
# Every pass is whole

While no reader that was given up moves the cursor under the pass of a later one, every inspection
sees the original and every attempt sends the original or its rewriting. One step of a reader that
was given up is enough to break this: the later upload then misses what that reader took.
-/
namespace Aipass.Replay

open SharedFile Conversion

/-- A body that holds the original, with readers that get it in order. -/
def ReplayableRequestBody.Keeps (original : Bytes) : ReplayableRequestBody → Prop
  | memory bytes => bytes = original
  | file handle len => handle.content = original ∧ len = original.length ∧ handle.Sound

/-- A task reads the body, unless it is the upload of a rewriting. -/
def Task.Placed (original : Bytes) (readers : List (Reader UInt8)) (task : Task) : Prop :=
  match task.source with
  | .bytes bytes => bytes = task.attempt.elim original fun attempt => attempt.upload.payload original
  | .reader index => index < readers.length ∧
    ∀ attempt, task.attempt = some attempt → attempt.upload.rewritten = none

namespace World

/-- A request whose tasks get what they are meant to get. -/
structure Sound (adapters : Adapters) (original : Bytes) (world : World) : Prop where
  body : world.body.Keeps original
  placed : ∀ task ∈ world.tasks, task.Placed original world.readers
  /-- Only uploads are attempts. -/
  inspects : ∀ task ∈ world.tasks, task.purpose ≠ .upload → task.attempt = none
  prepared : ∀ task ∈ world.tasks, ∀ attempt, task.attempt = some attempt →
    world.Prepared adapters original attempt ∧
      attempt.upload.contentLength = (attempt.upload.payload original).length
  /-- The request waited for what may not be given up. -/
  waited : ∀ task ∈ world.tasks.dropLast, task.purpose.leaves = false → world.settled task = true
  kept : ∀ task ∈ world.tasks, task.purpose.leaves = false → world.abandoned task = false

variable {adapters : Adapters} {original : Bytes} {world next : World} {task : Task}

/-- The length of a body is that of the original. -/
theorem Sound.len (sound : world.Sound adapters original) :
    world.body.len = original.length := by
  have holds := sound.body
  cases body : world.body with
  | memory bytes =>
    rw [body] at holds
    exact congrArg List.length holds
  | file handle len =>
    rw [body] at holds
    exact holds.2.1

/-- What a task that was not given up gets is a prefix of what it is meant to get. -/
theorem Sound.got (sound : world.Sound adapters original) (listed : task ∈ world.tasks)
    (going : world.abandoned task = false) :
    world.got task <+:
        task.attempt.elim original (fun attempt => attempt.upload.payload original) ∧
      (world.complete task = true → world.got task =
        task.attempt.elim original fun attempt => attempt.upload.payload original) := by
  have placed := sound.placed task listed
  cases source : task.source with
  | bytes bytes =>
    simp only [Task.Placed, source] at placed
    simp only [World.got, World.complete, source]
    exact ⟨placed ▸ List.prefix_refl _, fun _ => placed⟩
  | reader index =>
    simp only [Task.Placed, source] at placed
    simp only [World.got, World.complete, source]
    obtain ⟨inside, whole⟩ := placed
    have meant : task.attempt.elim original (fun attempt => attempt.upload.payload original) =
        original := by
      cases attempt : task.attempt with
      | none => rfl
      | some attempt => simp [Upload.payload, whole _ attempt]
    have held : world.reader task = some world.readers[index] := by
      simp only [World.reader, source]
      exact List.getElem?_eq_getElem inside
    rw [World.abandoned, held] at going
    rw [meant, held]
    have holds := sound.body
    cases body : world.body with
    | memory bytes => simp [World.readers, body] at inside
    | file handle len =>
      rw [body] at holds
      obtain ⟨content, -, readers⟩ := holds
      have listed : world.readers[index] ∈ handle.readers := by
        have ofFile : world.readers = handle.readers := by rw [World.readers, body]
        exact ofFile ▸ List.getElem_mem inside
      have faithful := readers.faithful _ listed
      rw [← content]
      exact ⟨faithful.isPrefix going, fun complete =>
        faithful.whole going (of_decide_eq_true complete)⟩

/-- What an inspection read is what the original gives. -/
theorem Sound.value {α : Type} (sound : world.Sound adapters original)
    (listed : task ∈ world.tasks) (inspects : task.purpose ≠ .upload)
    (awaited : task.purpose.leaves = false) (parse : Bytes → Option α) :
    world.value parse task = none ∨ world.value parse task = parse original := by
  rw [World.value]
  split
  · next complete =>
    have whole := (sound.got listed (sound.kept task listed awaited)).2 complete
    rw [sound.inspects task listed inspects] at whole
    exact .inr (congrArg parse whole)
  · exact .inl rfl

/-- The JSON of a request is what the original gives. -/
theorem Sound.requestJson (sound : world.Sound adapters original) :
    world.requestJson adapters = none ∨
      world.requestJson adapters = adapters.parse original := by
  rw [World.requestJson]
  cases found : world.tasks.find? fun task => task.purpose = .requestJson with
  | none => exact .inl rfl
  | some task =>
    have purpose : task.purpose = .requestJson := by simpa using List.find?_some found
    exact sound.value (List.mem_of_find?_eq_some found) (by simp [purpose])
      (by simp [purpose, Purpose.leaves]) adapters.parse

/-- Whether a request streams is what the original tells. -/
theorem Sound.streamingRequest (sound : world.Sound adapters original) :
    world.streamingRequest adapters = false ∨
      world.streamingRequest adapters = (adapters.stream original).getD false := by
  rw [World.streamingRequest]
  cases found : world.tasks.find? fun task => task.purpose = .metadata with
  | none => exact .inl rfl
  | some task =>
    have purpose : task.purpose = .metadata := by simpa using List.find?_some found
    have read := sound.value (List.mem_of_find?_eq_some found) (by simp [purpose])
      (by simp [purpose, Purpose.leaves]) adapters.stream
    obtain none_ | told := read
    · exact .inl (congrArg (Option.getD · false) none_)
    · exact .inr (congrArg (Option.getD · false) told)

/-- What an attempt prepares is the original or its rewriting. -/
theorem Sound.prepare (sound : world.Sound adapters original) {target : UploadTarget}
    {around : Surroundings} {upload : Upload}
    (went : world.prepare adapters target around = .ok upload) :
    world.Prepared adapters original ⟨target, around, upload⟩ ∧
      upload.contentLength = (upload.payload original).length := by
  rw [World.prepare] at went
  rw [Prepared]
  split at went
  · next conversation =>
    have length : upload.contentLength = (upload.payload original).length :=
      contentLength_eq sound.len went
    refine ⟨?_, length⟩
    refine ⟨world.streamingRequest adapters, sound.streamingRequest, ?_⟩
    rw [World.context, sound.len] at went
    obtain none_ | told := sound.requestJson
    · rw [none_] at went
      exact prepare_withoutJson rfl went (adapters.parse original)
    · rw [told] at went
      exact went
  · next images =>
    rw [sound.len] at went
    have same := image_contentLength_eq went
    rw [same]
    exact ⟨rfl, rfl⟩

/-- What an attempt sends is told by the route, the operation and the bytes in memory. -/
theorem Prepared.congr {attempt : Attempt} (prepared : world.Prepared adapters original attempt)
    (route : next.route = world.route) (operation : next.operation = world.operation)
    (bytes : next.body.bytes = world.body.bytes) : next.Prepared adapters original attempt := by
  rw [Prepared, route, operation, bytes]
  exact prepared

/-- A request that goes on has waited for every task it may not give up. -/
theorem Sound.awaited (sound : world.Sound adapters original) (idle : world.idle = true)
    (listed : task ∈ world.tasks) (stays : task.purpose.leaves = false) :
    world.settled task = true := by
  have last := (Bool.and_eq_true_iff.mp idle).2
  cases isLast : world.tasks.getLast? with
  | none =>
    rw [List.getLast?_eq_none_iff.mp isLast] at listed
    cases listed
  | some final =>
    rw [isLast] at last
    rw [← List.dropLast_append_getLast? final isLast] at listed
    obtain before | same := List.mem_append.mp listed
    · exact sound.waited task before stays
    · cases List.mem_singleton.mp same
      simpa [stays] using last

/-- A request goes on with one more task. -/
theorem Sound.extend (sound : world.Sound adapters original) (idle : world.idle = true)
    (tasks : next.tasks = world.tasks ++ [task]) (body : next.body.Keeps original)
    (readers : world.readers.length ≤ next.readers.length)
    (prepares : ∀ attempt, world.Prepared adapters original attempt →
      next.Prepared adapters original attempt)
    (stay : ∀ earlier ∈ world.tasks, world.settled earlier = true →
      next.settled earlier = true ∧ next.abandoned earlier = world.abandoned earlier)
    (placed : task.Placed original next.readers)
    (inspects : task.purpose ≠ .upload → task.attempt = none)
    (prepared : ∀ attempt, task.attempt = some attempt →
      world.Prepared adapters original attempt ∧
        attempt.upload.contentLength = (attempt.upload.payload original).length)
    (fresh : next.abandoned task = false) : next.Sound adapters original := by
  constructor
  case body => exact body
  case placed =>
    rw [tasks]
    intro other listed
    obtain before | same := List.mem_append.mp listed
    · have held := sound.placed other before
      rw [Task.Placed] at held ⊢
      split at held
      · exact held
      · exact ⟨Nat.lt_of_lt_of_le held.1 readers, held.2⟩
    · rw [List.mem_singleton.mp same]
      exact placed
  case inspects =>
    rw [tasks]
    intro other listed
    obtain before | same := List.mem_append.mp listed
    · exact sound.inspects other before
    · rw [List.mem_singleton.mp same]
      exact inspects
  case prepared =>
    rw [tasks]
    intro other listed attempt isAttempt
    obtain before | same := List.mem_append.mp listed
    · have held := sound.prepared other before attempt isAttempt
      exact ⟨prepares attempt held.1, held.2⟩
    · rw [List.mem_singleton.mp same] at isAttempt
      have held := prepared attempt isAttempt
      exact ⟨prepares attempt held.1, held.2⟩
  case waited =>
    rw [tasks, List.dropLast_concat]
    intro other before stays
    exact (stay other before (sound.awaited idle before stays)).1
  case kept =>
    rw [tasks]
    intro other listed stays
    obtain before | same := List.mem_append.mp listed
    · rw [(stay other before (sound.awaited idle before stays)).2]
      exact sound.kept other before stays
    · rw [List.mem_singleton.mp same]
      exact fresh

/-- The reader of an earlier task after a handle was cloned for a new one. -/
theorem reader_clone {handle : File UInt8} {len : ℕ} (body : world.body = .file handle len)
    (after : next.body = .file handle.clone len) (placed : task.Placed original world.readers) :
    next.reader task = (world.reader task).map Reader.leave := by
  rw [World.reader, World.reader]
  cases source : task.source with
  | bytes => rfl
  | reader index =>
    simp only [Task.Placed, source, World.readers, body] at placed
    simp only [World.readers, body, after]
    rw [File.clone, List.getElem?_append_left (by simpa using placed.1), List.getElem?_map]

/-- A reader with nothing left to do is not given up. -/
theorem leave_of_finished {reader : Reader UInt8} (finished : reader.finished = true) :
    reader.leave = reader := by
  simp [Reader.leave, finished]

/-- A task that has nothing left to do stays so when a handle is cloned for a new reader. -/
theorem over_clone {handle : File UInt8} {len : ℕ} (body : world.body = .file handle len)
    (after : next.body = .file handle.clone len) (placed : task.Placed original world.readers)
    (settled : world.settled task = true) :
    next.settled task = true ∧ next.abandoned task = world.abandoned task := by
  have clone := reader_clone body after placed
  cases source : task.source with
  | bytes bytes => simp [World.settled, World.abandoned, World.reader, source]
  | reader index =>
    simp only [World.settled, source] at settled ⊢
    rw [World.abandoned, World.abandoned, clone]
    cases held : world.reader task with
    | none =>
      rw [held] at settled
      cases settled
    | some reader =>
      rw [held] at settled
      have finished : reader.finished = true := settled
      rw [Option.map_some, leave_of_finished finished]
      exact ⟨finished, rfl⟩

/-- A task that reads the body keeps a request sound. -/
theorem Sound.read (sound : world.Sound adapters original) (idle : world.idle = true)
    {purpose : Purpose} {attempt : Option Attempt}
    (inspects : purpose ≠ .upload → attempt = none)
    (whole : ∀ own, attempt = some own → own.upload.rewritten = none)
    (prepared : ∀ own, attempt = some own → world.Prepared adapters original own ∧
      own.upload.contentLength = (own.upload.payload original).length) :
    (world.read purpose attempt).Sound adapters original := by
  have holds := sound.body
  rw [World.read]
  split
  · next bytes body =>
    rw [body] at holds
    refine sound.extend idle rfl sound.body (Nat.le_refl _) (fun _ prepared => prepared)
      (fun _ _ settled => ⟨settled, rfl⟩) ?_ inspects prepared rfl
    show bytes = _
    have same : bytes = original := holds
    cases attempt with
    | none => exact same
    | some own => simpa [Upload.payload, whole own rfl] using same
  · next handle len body =>
    rw [body] at holds
    obtain ⟨content, length, readers⟩ := holds
    have ofFile : world.readers = handle.readers := by rw [World.readers, body]
    apply sound.extend idle rfl _ _ _ _ _ inspects prepared
    · simp [World.abandoned, World.reader, World.readers, File.clone]
    · exact ⟨content, length, readers.clone⟩
    · show _ ≤ handle.clone.readers.length
      rw [ofFile, File.clone_length]
      exact Nat.le_succ _
    · exact fun _ prepared => prepared.congr rfl rfl (by rw [body]; rfl)
    · exact fun earlier listed settled => over_clone body rfl (sound.placed earlier listed) settled
    · exact ⟨by simp [World.readers], whole⟩

/-- An upload keeps a request sound. -/
theorem Sound.send (sound : world.Sound adapters original) (idle : world.idle = true)
    {attempt : Attempt} (prepared : world.Prepared adapters original attempt ∧
      attempt.upload.contentLength = (attempt.upload.payload original).length) :
    (world.send attempt).Sound adapters original := by
  rw [World.send]
  split
  · next payload rewritten =>
    refine sound.extend idle rfl sound.body (Nat.le_refl _) (fun _ prepared => prepared)
      (fun _ _ settled => ⟨settled, rfl⟩) ?_ (fun other => absurd rfl other) ?_ rfl
    · show payload = attempt.upload.payload original
      rw [Upload.payload, rewritten]
      rfl
    · rintro _ ⟨⟩
      exact prepared
  · next whole =>
    apply sound.read idle (fun other => absurd rfl other)
    · rintro _ ⟨⟩
      exact whole
    · rintro _ ⟨⟩
      exact prepared

/-- A reader that does not disturb the pass of a later one keeps a request sound. -/
theorem Sound.access (sound : world.Sound adapters original) {handle after : File UInt8}
    {len index : ℕ} {access : Access} (body : world.body = .file handle len)
    (went : handle.access index access = some after)
    (undisturbed : handle.Undisturbed index access) :
    ({ world with body := .file after len } : World).Sound adapters original := by
  have holds := sound.body
  rw [body] at holds
  obtain ⟨content, length, readers⟩ := holds
  have ofFile : world.readers = handle.readers := by rw [World.readers, body]
  have follow : ∀ task reader, world.reader task = some reader → ∃ later,
      ({ world with body := .file after len } : World).reader task = some later ∧
        later.abandoned = reader.abandoned ∧ (reader.finished = true → later = reader) := by
    intro task reader held
    simp only [World.reader] at held ⊢
    split at held
    · cases held
    · rw [ofFile] at held
      exact File.access_getElem? went held
  constructor
  case body => exact ⟨(File.access_content went).trans content, length, readers.accessed went undisturbed⟩
  case placed =>
    intro task listed
    have placed := sound.placed task listed
    rw [Task.Placed] at placed ⊢
    split at placed
    · exact placed
    · refine ⟨?_, placed.2⟩
      show _ < after.readers.length
      rw [File.access_length went, ← ofFile]
      exact placed.1
  case inspects => exact sound.inspects
  case prepared =>
    intro task listed attempt isAttempt
    have prepared := sound.prepared task listed attempt isAttempt
    exact ⟨prepared.1.congr rfl rfl (by rw [body]; rfl), prepared.2⟩
  case waited =>
    intro task before stays
    have settled := sound.waited task before stays
    simp only [World.settled] at settled ⊢
    split at settled
    · rfl
    · cases held : world.reader task with
      | none =>
        rw [held] at settled
        cases settled
      | some reader =>
        rw [held] at settled
        obtain ⟨later, isLater, -, same⟩ := follow task reader held
        rw [isLater, same settled]
        exact settled
  case kept =>
    intro task listed stays
    have kept := sound.kept task listed stays
    rw [World.abandoned] at kept ⊢
    cases held : world.reader task with
    | none =>
      have placed := sound.placed task listed
      cases source : task.source with
      | bytes => simp [World.reader, source]
      | reader index =>
        simp only [Task.Placed, source] at placed
        simp only [World.reader, source, List.getElem?_eq_none_iff] at held
        exact absurd placed.1 (Nat.not_lt_of_le held)
    | some reader =>
      rw [held] at kept
      obtain ⟨later, isLater, same, -⟩ := follow task reader held
      rw [isLater]
      exact same.trans kept

/-- A request starts sound. -/
theorem sound_start {route : UploadRoute} {operation : Operation} {body : ReplayableRequestBody}
    (fresh : body.Fresh original) : (start route operation body).Sound adapters original where
  body := by
    have holds := fresh.holds
    show body.Keeps original
    cases body with
    | memory bytes => exact holds
    | file handle len =>
      obtain ⟨rfl, length⟩ := holds
      exact ⟨rfl, length, .start (Nat.le_refl _)⟩
  placed := by simp [start]
  inspects := by simp [start]
  prepared := by simp [start]
  waited := by simp [start]
  kept := by simp [start]

/-- A step keeps a request sound. -/
theorem Sound.step {label : Label} (sound : world.Sound adapters original)
    (clear : world.Clear label) (stepped : world.step adapters label = some next) :
    next.Sound adapters original := by
  cases label with
  | inspect =>
    simp only [World.step] at stepped
    split at stepped
    · cases stepped
    · next purpose rest _ =>
      split at stepped
      · next idle =>
        cases stepped
        have unread : purpose ≠ .upload → (none : Option Attempt) = none := fun _ => rfl
        have read := sound.read idle unread (by simp) (by simp)
        exact ⟨read.body, read.placed, read.inspects, read.prepared, read.waited, read.kept⟩
      · cases stepped
  | websocket =>
    simp only [World.step] at stepped
    split at stepped
    · next ready =>
      cases stepped
      exact sound.read ready.1 (fun _ => rfl) (by simp) (by simp)
    · cases stepped
  | attempt target around =>
    simp only [World.step] at stepped
    split at stepped
    · next ready =>
      split at stepped
      · next upload prepares =>
        cases stepped
        exact sound.send ready.1 (sound.prepare prepares)
      · cases stepped
        exact sound
      · cases stepped
        exact ⟨sound.body, sound.placed, sound.inspects, sound.prepared, sound.waited, sound.kept⟩
      · cases stepped
        exact ⟨sound.body, sound.placed, sound.inspects, sound.prepared, sound.waited, sound.kept⟩
    · cases stepped
  | access index access =>
    simp only [World.step] at stepped
    simp only [Clear] at clear
    split at stepped
    · cases stepped
    · next handle len body =>
      rw [body] at clear
      obtain ⟨after, went, rfl⟩ := Option.map_eq_some_iff.mp stepped
      exact sound.access body went clear

/-- In a run in which no reader that was given up moves the shared cursor under the pass of a later
one, every pass gets what it is meant to get. -/
theorem passes_whole (adapters : Adapters) (original : Bytes) (world : World)
    (reached : (system adapters original).Reachable Clear world) :
    ∀ task ∈ world.tasks, world.abandoned task = false →
      world.Whole adapters original task := by
  have sound : world.Sound adapters original := by
    apply reached.invariant
    · rintro _ ⟨route, operation, body, fresh, rfl⟩
      exact sound_start fresh
    · exact fun _ _ _ sound clear stepped => sound.step clear stepped
  intro task listed going
  have gets := sound.got listed going
  rw [Whole]
  cases isAttempt : task.attempt with
  | none =>
    rw [isAttempt] at gets
    exact gets
  | some attempt =>
    rw [isAttempt] at gets
    obtain ⟨prepared, announced⟩ := sound.prepared task listed attempt isAttempt
    exact ⟨prepared, gets.1, gets.2, announced⟩

end World
end Aipass.Replay
