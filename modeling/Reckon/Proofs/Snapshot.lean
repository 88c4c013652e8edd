import Reckon.Proofs.Outcome
import Reckon.PlainDisk
import Reckon.Session

/-!
What a session keeps of the settings and of its calculators. A step that reads the settings takes
what is kept, or reads them and keeps them; only clearing lets go of them. A calculator's context is
replaced by the steps that name it and by no others. Main statement: between two clearings all
readings agree with the first that succeeds, one that fails keeps nothing, and a calculator computes
under the context that it was made with, whatever is done around it and whatever the host reads from
variables and disks (`settings_snapshot`).
-/

namespace Reckon

variable {Disk : Type}

/-- One reading of the settings: the variables and the disk at that moment, and what it gave. -/
structure Reading (Disk : Type) where
  environment : Environment
  disk : Disk
  result : Except Fault Settings

/-- What the host gave, or would have given, at a reading. -/
def Host.gave (host : Host Disk) (r : Reading Disk) : Except Fault Settings :=
  host.settings r.environment r.disk

/-- Readings of one snapshot. The first ones fail, each as the host does then; from the first that
succeeds on, all give what the host gave at that one. -/
def Snapshot (host : Host Disk) (rs : List (Reading Disk)) : Prop :=
  ∃ failed kept, rs = failed ++ kept ∧
    (∀ r ∈ failed, ∃ f, host.gave r = .error f ∧ r.result = .error f) ∧
    ∀ first ∈ kept.head?, ∃ s, host.gave first = .ok s ∧ ∀ r ∈ kept, r.result = .ok s

namespace Step

/-- Whether a step reads the settings. -/
def reads : Step Disk → Bool
  | .getSettings | .new _ .settings | .quick _ => true
  | _ => false

/-- The calculator whose context a step sets. -/
def writes? : Step Disk → Option String
  | .new id _ | .setFlag id _ _ | .setEpsilon id _ | .setSeparators id _ | .setOperator id _ _ _
  | .removeOperator id _ | .setFunction id _ _ _ | .removeFunction id _ => some id
  | _ => none

end Step

variable {host : Host Disk}

namespace Session

/-- What reading the settings gives now. -/
def reading (s : Session host) : Reading Disk :=
  ⟨s.world.environment, s.world.disk, s.world.settings.map Prod.fst⟩

/-- The readings of the settings that steps make in turn. -/
def readings (s : Session host) : List (Step Disk) → List (Reading Disk)
  | [] => []
  | step :: steps =>
    let later := (s.step step).2.readings steps
    if step.reads then s.reading :: later else later

/-- The session after steps taken in turn. -/
def after (s : Session host) (steps : List (Step Disk)) : Session host := (s.run steps).2

/-- Steps that leave a calculator alone: those that would set its context fail. -/
def Spares (s : Session host) (id : String) (steps : List (Step Disk)) : Prop :=
  ∀ step answer, (step, answer) ∈ steps.zip (s.run steps).1 → step.writes? = some id →
    ∃ p, answer = .error p

end Session

/-! ## What is kept of the settings -/

namespace World
variable {w : World host}

theorem settings_of_kept {s : Settings} (h : w.cache = some s) : w.settings = .ok (s, w) := by
  rw [settings, h]

/-- With nothing kept the host reads them. -/
theorem settings_of_empty (h : w.cache = none) : w.settings =
    (host.settings w.environment w.disk).map fun s => (s, { w with cache := some s }) := by
  rw [settings, h]

/-- A reading that fails found nothing kept. -/
theorem empty_of_settings {f : Fault} (h : w.settings = .error f) : w.cache = none := by
  cases kept : w.cache with
  | none => rfl
  | some s =>
    rw [settings_of_kept kept] at h
    cases h

/-- Reading touches nothing but what is kept. -/
theorem disk_of_settings {s : Settings} {w' : World host} (h : w.settings = .ok (s, w')) :
    w'.disk = w.disk := by
  cases kept : w.cache with
  | some t =>
    rw [settings_of_kept kept] at h
    obtain ⟨rfl, rfl⟩ := Prod.mk.inj (Except.ok.inj h)
    rfl
  | none =>
    rw [settings_of_empty kept] at h
    obtain ⟨t, -, same⟩ := map_eq_ok.mp h
    obtain ⟨rfl, rfl⟩ := Prod.mk.inj same
    rfl

theorem origin_of_settings {s : Settings} {w' : World host} (h : w.settings = .ok (s, w')) :
    w.origin .settings = (Context.ofSettings host w'.disk s, w') := by
  rw [origin, h]

end World

namespace Session
variable {s : Session host}

/-! ## One step -/

/-- A change fails and changes nothing, or it sets the context of the calculator that it names. -/
theorem change_cases (s : Session host) (id : String)
    (f : Context → Except Problem (Answer × Context)) :
    (∃ p, s.change id f = (.error p, s)) ∨
      ∃ a ctx, s.change id f =
        (.ok a, { s with calculators := s.calculators.put id ctx }) := by
  rw [change]
  split
  · next a ctx _ => exact .inr ⟨a, ctx, rfl⟩
  · next p _ => exact .inl ⟨p, rfl⟩

/-- A step that reads the settings, when that fails, fails with the same fault and changes
nothing. -/
theorem step_of_unreadable {step : Step Disk} {f : Fault} (reads : step.reads = true)
    (h : s.world.settings = .error f) : s.step step = (.error (.fault f), s) := by
  cases step with
  | getSettings => rw [Session.step, h]
  | new id origin =>
    cases origin with
    | settings => rw [Session.step, World.origin, h]
    | _ => cases reads
  | quick text =>
    rw [Session.step, World.compute, World.origin, h]
    rfl
  | _ => cases reads

/-- A step that reads the settings leaves the world as the reading leaves it. -/
theorem world_step_of_reads {step : Step Disk} {σ : Settings} {w : World host}
    (reads : step.reads = true) (h : s.world.settings = .ok (σ, w)) :
    (s.step step).2.world = w := by
  cases step with
  | getSettings => rw [Session.step, h]
  | new id origin =>
    cases origin with
    | settings =>
      rw [Session.step, World.origin_of_settings h]
      cases Context.ofSettings host w.disk σ <;> rfl
    | _ => cases reads
  | quick text =>
    simp only [Session.step, World.compute, World.origin_of_settings h]
    cases Context.ofSettings host w.disk σ <;> rfl
  | _ => cases reads

/-- A step that neither reads the settings nor clears them keeps what is kept. -/
theorem cache_step {step : Step Disk} (unread : step.reads = false)
    (uncleared : step ≠ .clearCache) : (s.step step).2.world.cache = s.world.cache := by
  have change (id : String) (f : Context → Except Problem (Answer × Context)) :
      (s.change id f).2.world.cache = s.world.cache := by
    obtain ⟨p, h⟩ | ⟨a, ctx, h⟩ := change_cases s id f <;> rw [h]
  cases step with
  | setVariable name value =>
    cases h : s.world.setVariable name value with
    | error f => simp only [Session.step, h]
    | ok w =>
      simp only [World.setVariable] at h
      cases changed : s.world.environment.setVariable name value with
      | error f =>
        rw [changed] at h
        cases h
      | ok env =>
        rw [changed] at h
        obtain rfl := Except.ok.inj h
        simp only [Session.step, World.setVariable, changed]
        rfl
  | new id origin =>
    cases origin with
    | standard => rfl
    | file path =>
      simp only [Session.step, World.origin]
      cases Context.ofFile host s.world.disk path <;> rfl
    | settings => cases unread
  | clearCache => exact absurd rfl uncleared
  | parse id text tree =>
    simp only [Session.step]
    split <;> rfl
  | getSettings | quick _ => cases unread
  | setFlag | setEpsilon | setSeparators | setOperator | removeOperator | setFunction
  | removeFunction => exact change _ _
  | _ => rfl

/-- A step sets the context of the calculator that it names, and succeeds, or it leaves all
calculators alone. -/
theorem calculators_step (s : Session host) (step : Step Disk) :
    (s.step step).2.calculators = s.calculators ∨
      ∃ id ctx a, step.writes? = some id ∧ (s.step step).1 = .ok a ∧
        (s.step step).2.calculators = s.calculators.put id ctx := by
  have change (id : String) (f : Context → Except Problem (Answer × Context)) :
      (s.change id f).2.calculators = s.calculators ∨
        ∃ id' ctx a, some id = some id' ∧ (s.change id f).1 = .ok a ∧
          (s.change id f).2.calculators = s.calculators.put id' ctx := by
    obtain ⟨p, h⟩ | ⟨a, ctx, h⟩ := change_cases s id f <;> rw [h]
    · exact .inl rfl
    · exact .inr ⟨id, ctx, a, rfl, rfl, rfl⟩
  cases step with
  | new id origin =>
    simp only [Session.step]
    split
    · next ctx _ _ => exact .inr ⟨id, ctx, _, rfl, rfl, rfl⟩
    · exact .inl rfl
  | setVariable | getSettings | parse =>
    simp only [Session.step]
    split <;> exact .inl rfl
  | setFlag | setEpsilon | setSeparators | setOperator | removeOperator | setFunction
  | removeFunction => exact change _ _
  | _ => exact .inl rfl

/-! ## Steps in turn -/

/-- Once the settings are kept, all readings give them until the cache is cleared. -/
theorem readings_of_kept {steps : List (Step Disk)} (uncleared : .clearCache ∉ steps)
    {s : Session host} {σ : Settings} (h : s.world.cache = some σ) :
    ∀ r ∈ s.readings steps, r.result = .ok σ := by
  induction steps generalizing s with
  | nil => simp [readings]
  | cons step steps ih =>
    obtain ⟨other, uncleared⟩ := List.ne_and_not_mem_of_not_mem_cons uncleared
    have kept := World.settings_of_kept h
    rw [readings]
    cases reads : step.reads with
    | false => exact ih uncleared ((cache_step reads (Ne.symm other)).trans h)
    | true =>
      have later := ih uncleared ((congrArg World.cache (world_step_of_reads reads kept)).trans h)
      simp only [if_true, List.forall_mem_cons]
      refine ⟨?_, later⟩
      rw [reading, kept]
      rfl

/-- From an empty cache on, readings are those of one snapshot until the cache is cleared. -/
theorem snapshot_readings {steps : List (Step Disk)} (uncleared : .clearCache ∉ steps)
    {s : Session host} (h : s.world.cache = none) : Snapshot host (s.readings steps) := by
  induction steps generalizing s with
  | nil => exact ⟨[], [], rfl, by simp, by simp⟩
  | cons step steps ih =>
    obtain ⟨other, uncleared⟩ := List.ne_and_not_mem_of_not_mem_cons uncleared
    have read := World.settings_of_empty h
    rw [readings]
    cases reads : step.reads with
    | false => exact ih uncleared ((cache_step reads (Ne.symm other)).trans h)
    | true =>
      simp only [if_true]
      cases given : host.settings s.world.environment s.world.disk with
      | error f =>
        rw [given] at read
        -- nothing is kept, and what comes later is a snapshot of its own
        obtain ⟨failed, kept, split, fails, keeps⟩ := ih uncleared h
        rw [step_of_unreadable reads read, split]
        refine ⟨s.reading :: failed, kept, rfl, ?_, keeps⟩
        refine List.forall_mem_cons.mpr ⟨⟨f, given, ?_⟩, fails⟩
        rw [reading, read]
        rfl
      | ok σ =>
        rw [given] at read
        have kept : (s.step step).2.world.cache = some σ := by
          rw [world_step_of_reads reads read]
        refine ⟨[], _, rfl, by simp, ?_⟩
        intro first head
        obtain rfl := Option.some.inj head
        refine ⟨σ, given, List.forall_mem_cons.mpr ⟨?_, readings_of_kept uncleared kept⟩⟩
        rw [reading, read]
        rfl

theorem readings_append (s : Session host) (before later : List (Step Disk)) :
    s.readings (before ++ later) = s.readings before ++ (s.after before).readings later := by
  induction before generalizing s with
  | nil => rfl
  | cons step before ih =>
    rw [List.cons_append, readings, readings, ih]
    cases step.reads <;> rfl

/-- Steps that spare a calculator leave its context as it is. -/
theorem calculator_after {id : String} {steps : List (Step Disk)} {s : Session host}
    (h : s.Spares id steps) :
    (s.after steps).calculators.value? id = s.calculators.value? id := by
  induction steps generalizing s with
  | nil => rfl
  | cons step steps ih =>
    have later : (s.step step).2.Spares id steps :=
      fun other answer paired => h other answer (List.mem_cons_of_mem _ paired)
    refine (ih later).trans ?_
    obtain same | ⟨id', ctx, a, writes, answered, put⟩ := calculators_step s step
    · rw [same]
    · have other : id' ≠ id := by
        rintro rfl
        obtain ⟨p, failed⟩ := h step (s.step step).1 List.mem_cons_self writes
        rw [answered] at failed
        cases failed
      rw [put, Table.value?_put, if_neg other]

/-- A calculator computes under its context. -/
theorem step_compute {id : String} {ctx : Context} (h : s.calculators.value? id = some ctx)
    (text : String) : (s.step (.compute id text)).1 = (ctx.compute text).map .number := by
  rw [Session.step, ask, entry, h]
  rfl

end Session

/-- From the start of a run with nothing kept, and from each clearing on until the next, the
readings of the settings are those of one snapshot. A reading is what a step answers or works with:
where it fails nothing is changed and nothing kept; where it succeeds, and its context can be read,
a new calculator computes under that context ever after, as long as the steps between spare it. -/
theorem settings_snapshot {Disk : Type} {host : Host Disk} (s : Session host) :
    (s.world.cache = none → ∀ steps, .clearCache ∉ steps → Snapshot host (s.readings steps)) ∧
    (∀ before steps, .clearCache ∉ steps → ∃ later, Snapshot host later ∧
      s.readings (before ++ .clearCache :: steps) = s.readings before ++ later) ∧
    (∀ f step, step.reads = true → s.reading.result = .error f →
      s.step step = (.error (.fault f), s) ∧ s.world.cache = none) ∧
    ∀ σ, s.reading.result = .ok σ →
      (s.step .getSettings).1 = .ok (.settings σ) ∧
      ∀ ctx, Context.ofSettings host s.world.disk σ = .ok ctx → ∀ id,
        (s.step (.new id .settings)).1 = .ok (.data ctx.name) ∧
        ∀ between, (s.step (.new id .settings)).2.Spares id between → ∀ text,
          (((s.step (.new id .settings)).2.after between).step (.compute id text)).1 =
            (ctx.compute text).map .number := by
  refine ⟨?_, ?_, ?_, ?_⟩
  · intro empty steps uncleared
    exact Session.snapshot_readings uncleared empty
  · intro before steps uncleared
    let cleared := ((s.after before).step .clearCache).2
    exact ⟨cleared.readings steps, Session.snapshot_readings uncleared rfl,
      s.readings_append before (.clearCache :: steps)⟩
  · intro f step reads failed
    have unreadable : s.world.settings = .error f := map_eq_error.mp failed
    exact ⟨Session.step_of_unreadable reads unreadable, World.empty_of_settings unreadable⟩
  · intro σ given
    obtain ⟨⟨σ, w⟩, read, rfl⟩ := map_eq_ok.mp given
    refine ⟨by rw [Session.step, read], ?_⟩
    intro ctx described id
    have origin : s.world.origin .settings = (.ok ctx, w) := by
      rw [World.origin_of_settings read, World.disk_of_settings read, described]
    have made : s.step (.new id .settings) =
        (.ok (.data ctx.name), { s with world := w, calculators := s.calculators.put id ctx }) := by
      rw [Session.step, origin]
    rw [made]
    refine ⟨rfl, ?_⟩
    intro between spares text
    apply Session.step_compute
    rw [Session.calculator_after spares, Table.value?_put, if_pos rfl]

/-- Where calls may not nest at first and may later: until the cache is cleared they still may not,
nor may they ever in the calculator made before the change, whatever is on disk then. A value that
is no truth value fails. -/
theorem settings_snapshot_changed_variable :
    let named (value : String) : Session Host.plain :=
      ⟨⟨[("MATHTREE_NESTED_FUNCTIONS", value)], ⟨[], []⟩, none⟩, [], []⟩
    let s := named "0"
    let change : Step PlainDisk := .setVariable "MATHTREE_NESTED_FUNCTIONS" (some "1")
    let write : Step PlainDisk := .setDisk ⟨[("MATHTREE_CONTEXT_FILE", "missing.yaml")], []⟩
    let flat := Context.standard.setFlag Context.nestingFlag (.bool false)
    Snapshot Host.plain (s.readings [.getSettings, change, .getSettings]) ∧
      (∃ later, Snapshot Host.plain later ∧
        s.readings ([.getSettings, change] ++ [.clearCache, .getSettings]) =
          s.readings [.getSettings, change] ++ later) ∧
      (named "some").step .getSettings = (.error (.fault .invalidSettings), named "some") ∧
      (((s.step (.new "c" .settings)).2.after
        [change, write, .clearCache, .new "d" .settings]).step (.compute "c" "abs(abs(1))")).1 =
          (flat.compute "abs(abs(1))").map .number := by
  intro named s change write flat
  have off : Settings.switchOfName? "0" = some false := by decide +kernel
  have unclear : Settings.switchOfName? "some" = none := by decide +kernel
  have given : s.reading.result = .ok ⟨"INFO", "text", none, none, false⟩ := by
    simp [s, named, Session.reading, World.settings, Settings.read_nested, Settings.readSwitch,
      Settings.switch?, off]
  have refused : (named "some").reading.result = .error .invalidSettings := by
    simp [named, Session.reading, World.settings, Settings.read_nested, Settings.readSwitch,
      Settings.switch?, unclear]
  obtain ⟨first, cleared, -, made⟩ := settings_snapshot s
  obtain ⟨-, -, unreadable, -⟩ := settings_snapshot (named "some")
  have spares : (s.step (.new "c" .settings)).2.Spares "c"
      [change, write, .clearCache, .new "d" .settings] := by
    intro step answer paired writes
    have mem := (List.of_mem_zip paired).1
    simp only [List.mem_cons, List.not_mem_nil, or_false] at mem
    obtain rfl | rfl | rfl | rfl := mem
    · cases writes
    · cases writes
    · cases writes
    · exact absurd (Option.some.inj writes) (by decide)
  refine ⟨first rfl _ (by simp [change]), cleared _ _ (by simp), ?_, ?_⟩
  · exact (unreadable _ _ rfl refused).1
  · exact ((made _ given).2 flat rfl "c").2 _ spares _

end Reckon
