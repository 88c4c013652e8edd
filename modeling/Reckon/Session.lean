import Reckon.Calculator
import Reckon.Settings

/-!
Sessions: calculators and trees kept by name in a world of settings. The settings are read once and
kept until the cache is cleared; a calculator keeps the context it was made with, which steps may
change. Every step has an answer, and one that fails changes nothing but what it had read.
-/

namespace Reckon

/-- What lies outside a session's calculators: what the host reads, and the settings read last. -/
structure World {Disk : Type} (h : Host Disk) where
  environment : Environment
  disk : Disk
  cache : Option Settings

/-- A world with its calculators, each given by its context, and its trees. -/
structure Session {Disk : Type} (h : Host Disk) where
  world : World h
  calculators : Table Context
  trees : Table Expr

/-- Where a new calculator's context comes from. -/
inductive Origin where
  | standard
  | file (path : String)
  | settings

/-- What a session can be asked. -/
inductive Step (Disk : Type) where
  | setVariable (name : String) (value : Option String)
  | setDisk (disk : Disk)
  | clearCache
  | getSettings
  | new (id : String) (origin : Origin)
  | quick (text : String)
  | compute (id text : String)
  | tokenize (id text : String)
  | parse (id text tree : String)
  | evaluate (id tree : String)
  | render (id tree : String)
  | same (id a b : String)
  | context (id : String)
  | setFlag (id name : String) (value : Data)
  | getFlag (id name : String) (standard : Data)
  | setEpsilon (id : String) (epsilon : Data)
  | setSeparators (id : String) (separators : Data)
  | setOperator (id sign : String) (precedence associativity : Data)
  | removeOperator (id sign : String)
  | setFunction (id name : String) (arity : Data) (builtin : Option String)
  | removeFunction (id name : String)
  | precedence (id sign : String)
  | associativity (id sign : String)
  | isSeparator (id text : String)
  | isFunction (id name : String)
  | getFunction (id name : String)

/-- What a step answers. -/
inductive Answer where
  | nothing
  | truth (b : Bool)
  | number (x : Float)
  | text (s : String)
  | data (d : Data)
  | settings (s : Settings)
  | context (ctx : Context) (listing : Listing)
  | entry (name : String) (entry : FunctionEntry)

namespace World
variable {Disk : Type} {h : Host Disk}

/-- The kept settings, or the ones read now, which are kept from then on. -/
def settings (w : World h) : Except Fault (Settings × World h) :=
  match w.cache with
  | some s => .ok (s, w)
  | none => (h.settings w.environment w.disk).map fun s => (s, { w with cache := some s })

/-- The context of a new calculator, and the world after the settings were read for it. -/
def origin (w : World h) : Origin → Except Fault Context × World h
  | .standard => (.ok .standard, w)
  | .file path => (Context.ofFile h w.disk path, w)
  | .settings =>
    match w.settings with
    | .ok (s, w) => (Context.ofSettings h w.disk s, w)
    | .error f => (.error f, w)

/-- The value of a text in one call; without a context, under the one that the settings describe. -/
def compute (w : World h) (given : Option Context) (text : String) :
    Except Problem Float × World h :=
  match given with
  | some ctx => (ctx.compute text, w)
  | none =>
    match w.origin .settings with
    | (.ok ctx, w) => (ctx.compute text, w)
    | (.error f, w) => (.error (.fault f), w)

/-- Sets a variable of the environment, or unsets it. -/
def setVariable (w : World h) (name : String) (value : Option String) :
    Except Fault (World h) := do
  let environment ← w.environment.setVariable name value
  .ok { w with environment }

end World

namespace Session
variable {Disk : Type} {h : Host Disk}

/-- The entry of a table, or the fault of a missing key. -/
def entry {α : Type} (t : Table α) (key : String) : Except Problem α :=
  match t.value? key with
  | some a => .ok a
  | none => .error (.fault (.missingKey key))

/-- Asks a calculator's context. -/
def ask (s : Session h) (id : String) (f : Context → Except Problem Answer) :
    Except Problem Answer × Session h :=
  (entry s.calculators id >>= f, s)

/-- Changes a calculator's context. -/
def change (s : Session h) (id : String) (f : Context → Except Problem (Answer × Context)) :
    Except Problem Answer × Session h :=
  match entry s.calculators id >>= f with
  | .ok (answer, changed) =>
    (.ok answer, { s with calculators := s.calculators.put id changed })
  | .error p => (.error p, s)

/-- The builtin of a name, if one is given. -/
def builtinOf : Option String → Except Problem (Option Builtin)
  | none => .ok none
  | some name =>
    match Builtin.ofName? name with
    | some b => .ok (some b)
    | none => .error (.fault (.missingKey name))

/-- Asks a calculator's context about a kept tree. -/
def askTree (s : Session h) (id tree : String) (f : Context → Expr → Except Problem Answer) :
    Except Problem Answer × Session h :=
  s.ask id fun ctx => do f ctx (← entry s.trees tree)

/-- The answer of one step and the session after it. -/
def step (s : Session h) : Step Disk → Except Problem Answer × Session h
  | .setVariable name value =>
    match s.world.setVariable name value with
    | .ok world => (.ok .nothing, { s with world })
    | .error f => (.error (.fault f), s)
  | .setDisk disk => (.ok .nothing, { s with world := { s.world with disk } })
  | .clearCache => (.ok .nothing, { s with world := { s.world with cache := none } })
  | .getSettings =>
    match s.world.settings with
    | .ok (settings, world) => (.ok (.settings settings), { s with world })
    | .error f => (.error (.fault f), s)
  | .new id origin =>
    match s.world.origin origin with
    | (.ok ctx, world) =>
      (.ok (.data ctx.name), { s with world, calculators := s.calculators.put id ctx })
    | (.error f, world) => (.error (.fault f), { s with world })
  | .quick text =>
    let (value, world) := s.world.compute none text
    (value.map .number, { s with world })
  | .compute id text => s.ask id fun ctx => (ctx.compute text).map .number
  | .tokenize id text =>
    s.ask id fun ctx => (ctx.tokenize text).map fun ts => .text (Token.describeAll ts)
  | .parse id text tree =>
    match (entry s.calculators id).bind (·.parse text) with
    | .ok e => (.ok (.text e.describe), { s with trees := s.trees.put tree e })
    | .error p => (.error p, s)
  | .evaluate id tree => s.askTree id tree fun ctx e => (e.eval ctx).map .number
  | .render id tree => s.askTree id tree fun ctx e => ((e.render ctx).mapError .fault).map .text
  | .same id a b =>
    s.askTree id a fun _ x => (entry s.trees b).map fun y => .truth (x.same y)
  | .context id => s.ask id fun ctx => (ctx.listing.mapError .fault).map (.context ctx)
  | .setFlag id name value => s.change id fun ctx => .ok (.nothing, ctx.setFlag name value)
  | .getFlag id name standard =>
    s.ask id fun ctx => .ok (.data ((ctx.flag? name).getD standard))
  | .setEpsilon id epsilon =>
    s.change id fun ctx =>
      (epsilon.double.mapError .fault).map fun epsilon => (.nothing, { ctx with epsilon })
  | .setSeparators id separators =>
    s.change id fun ctx => .ok (.nothing, { ctx with separators })
  | .setOperator id sign precedence associativity =>
    s.change id fun ctx =>
      ((Associativity.ofData associativity).mapError .fault).map fun associativity =>
        (.nothing,
          { ctx with operators := ctx.operators.put sign ⟨precedence, associativity⟩ })
  | .removeOperator id sign =>
    s.change id fun ctx =>
      .ok (.truth (ctx.operators.has sign), { ctx with operators := ctx.operators.remove sign })
  | .setFunction id name arity builtin =>
    s.change id fun ctx =>
      (builtinOf builtin).map fun builtin =>
        (.nothing, { ctx with functions := ctx.functions.put name ⟨arity, builtin⟩ })
  | .removeFunction id name =>
    s.change id fun ctx =>
      .ok (.truth (ctx.functions.has name), { ctx with functions := ctx.functions.remove name })
  | .precedence id sign => s.ask id fun ctx => .ok (.data (ctx.precedence sign))
  | .associativity id sign => s.ask id fun ctx => .ok (.text (ctx.associativity sign).name)
  | .isSeparator id text =>
    s.ask id fun ctx =>
      match ctx.separators.holds? with
      | some holds => .ok (.truth (holds text))
      | none => .error (.fault .noSeparators)
  | .isFunction id name => s.ask id fun ctx => .ok (.truth (ctx.function? name).isSome)
  | .getFunction id name =>
    s.ask id fun ctx =>
      .ok ((ctx.function? name).elim .nothing (.entry (Text.small name)))

/-- The answers of steps taken in turn, and the session after them. -/
def run (s : Session h) : List (Step Disk) → List (Except Problem Answer) × Session h
  | [] => ([], s)
  | step :: steps =>
    let (answer, next) := s.step step
    let (answers, last) := next.run steps
    (answer :: answers, last)

end Session
end Reckon
