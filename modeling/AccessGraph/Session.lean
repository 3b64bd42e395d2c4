import AccessGraph.Compilation.Script
import AccessGraph.Preset.Basic
import AccessGraph.Registry.Entity

/-!
# Sessions

A session works on registries under names.  Each step is directed at one registry and is answered
with a reply or a fault; a fault does not end the session.  Steps refer to entities by registry,
kind and identifier, or to stand-ins that are registered nowhere: whatever is linked to an owner
only lends its identifier or its name.

The owner is looked up first, then the target, and the terms of a link are asked for last.  Where
several targets are linked in one step, each is looked up just before it is linked, so the targets
in front of one that is missing stay linked.  Stand-ins and terms may hold instances that break
their schema; that is a fault of the step when their turn comes, and not before.
-/

namespace AccessGraph

/-- What stands in for an entity and is registered nowhere. -/
structure StandIn where
  id : Value
  name : Value

/-- A reference made in a step. -/
inductive Ref where
  | registered (registry : String) (kind : Kind) (id : Identifier)
  | standIn (target : Checked StandIn)

/-- A step of a session. -/
inductive Step where
  | createRegistry (schema auth : Option String)
  | table (name : String)
  | define (definition : Definition)
  | script (kind : Kind) (id : Identifier) (script : Scripted)
  | givePermissions (owner : Ref) (permissions : List Ref)
  | attachGroup (role group : Ref) (terms : Checked Terms)
  | assignRole (account role : Ref)
  | override (account : Ref) (isGrant : Bool) (permission : Ref) (terms : Checked Terms)
  | describe (entity : Ref)
  | identifiers (kind : Kind)
  | emit (entity : Ref)
  | lookup (entity : Ref)
  | display (entity : Ref)
  | validate
  | compile
  | generate
  | toScript
  | buildPreset (name : String) (root : Option String)
  | buildInto (name : String) (root : Option String)

/-- What a step is answered with. -/
inductive Reply where
  | done
  | text (s : String)
  | texts (ss : List String)
  | references (ids : List Value)
  | entity (e : Entity)
  | emission (e : Emission)
  | assignments (as : List Assignment)
  | overrides (os : List Override)
  | compiled (log : List LogRecord) (c : Compilation)
  | generated (log : List LogRecord) (statements : List String)

/-- Why a step has no reply. -/
inductive Fault where
  | error (e : Error)
  /-- A value handed in holds an instance that breaks its schema. -/
  | broken (issues : List Issue)
  | noRegistry (name : String)
  /-- The entity is not of a kind that the step is about. -/
  | unsuitable

/-- Registries under names. -/
structure Session where
  defaults : Names
  registries : List (String × Registry)

namespace Session

/-- The session with one registry of the default names. -/
def start (defaults : Names) (name : String) : Session := ⟨defaults, [(name, .empty defaults)]⟩

/-- The registry under a name. -/
def registry? (s : Session) (name : String) : Option Registry := s.registries.lookup name

/-- The registry under a name, which has to be there. -/
def registry (s : Session) (name : String) : Except Fault Registry :=
  match s.registry? name with
  | some r => .ok r
  | none => .error (.noRegistry name)

/-- Puts a registry under a name. -/
def put (s : Session) (name : String) (r : Registry) : Session :=
  { s with registries := (name, r) :: s.registries.filter fun e => e.1 != name }

/-- A result of the library as one of a session. -/
def orFault {α : Type} : Except Error α → Except Fault α
  | .ok a => .ok a
  | .error e => .error (.error e)

/-- A value handed in, which has to be sound. -/
def orBroken {α : Type} : Checked α → Except Fault α
  | .ok a => .ok a
  | .bad is => .error (.broken is)

/-- What an entity is asked for, if it has that. -/
def orUnsuitable {α : Type} : Option α → Except Fault α
  | some a => .ok a
  | none => .error .unsuitable

/-- The registry, the identifier and the entity that a reference leads to. -/
def find (s : Session) : Ref → Except Fault (String × String × Entity)
  | .registered name kind id => do
    let r ← s.registry name
    let e ← orFault (r.entity kind id)
    return (name, id.text, e)
  | .standIn target => do
    let _ ← orBroken target
    .error .unsuitable

/-- The identifier of a target. -/
def targetId (s : Session) : Ref → Except Fault Value
  | .standIn target => do return (← orBroken target).id
  | ref => do
    let (_, _, e) ← s.find ref
    return e.identifier.value

/-- The name of a target. -/
def targetName (s : Session) : Ref → Except Fault Value
  | .standIn target => do return (← orBroken target).name
  | ref => do
    let (_, _, e) ← s.find ref
    return .text (← orUnsuitable e.name?)

/-- The session after a command in one of its registries. -/
def apply (s : Session) (name : String) (c : Command) : Except Fault Session := do
  let r ← s.registry name
  return s.put name (← orFault (r.apply c))

/-- What an owner tells after a command in its registry. -/
def change (s : Session) (name : String) (kind : Kind) (id : String) (c : Command)
    (tell : Entity → Option Reply) : Except Fault (Session × Reply) := do
  let s ← s.apply name c
  let (_, _, e) ← s.find (.registered name kind id)
  return (s, ← orUnsuitable (tell e))

/-- Links one permission to an owner. -/
def givePermission (s : Session) (name : String) (id : String) (owner : Entity)
    (permission : Ref) : Except Fault Session := do
  let p ← s.targetId permission
  let l ← orUnsuitable (owner.permissionLink? id p)
  s.apply name (.link l)

/-- Links permissions to an owner, one after another. -/
def givePermissions (s : Session) (name : String) (id : String) (owner : Entity) :
    List Ref → Session × Option Fault
  | [] => (s, none)
  | p :: ps =>
    match s.givePermission name id owner p with
    | .ok s => s.givePermissions name id owner ps
    | .error fault => (s, some fault)

/-- A step that changes nothing unless it succeeds. -/
def whole (s : Session) (r : Except Fault (Session × Reply)) : Session × Except Fault Reply :=
  match r with
  | .ok (s, reply) => (s, .ok reply)
  | .error fault => (s, .error fault)

/-- Links permissions to the owner that a reference leads to. -/
def stepPermissions (s : Session) (owner : Ref) (permissions : List Ref) :
    Session × Except Fault Reply :=
  match s.find owner with
  | .error fault => (s, .error fault)
  | .ok (name, id, e) =>
    -- An owner without permissions is told before anything is given to it.
    if e.permissions?.isNone then (s, .error .unsuitable)
    else match s.givePermissions name id e permissions with
      | (s, some fault) => (s, .error fault)
      | (s, none) =>
        -- The owner is looked up again, with what it was given.
        (s, do
          let (_, _, e) ← s.find owner
          return .references (← orUnsuitable e.permissions?))

/-- Attaches a group to the role that a reference leads to. -/
def stepGroup (s : Session) (role group : Ref) (terms : Checked Terms) :
    Except Fault (Session × Reply) := do
  let (name, id, e) ← s.find role
  let _ ← orUnsuitable e.assignments?
  let g ← s.targetId group
  let terms ← orBroken terms
  s.change name .role id (.link (.roleGroup id g terms)) fun e =>
    e.assignments?.map Reply.assignments

/-- Assigns a role to the account that a reference leads to. -/
def stepRole (s : Session) (account role : Ref) : Except Fault (Session × Reply) := do
  let (name, id, e) ← s.find account
  let _ ← orUnsuitable e.roles?
  let o ← s.targetId role
  s.change name .account id (.link (.accountRole id o)) fun e =>
    e.roles?.map Reply.references

/-- Grants a permission to the account that a reference leads to, or withholds it. -/
def stepOverride (s : Session) (account : Ref) (isGrant : Bool) (permission : Ref)
    (terms : Checked Terms) : Except Fault (Session × Reply) := do
  let (name, id, e) ← s.find account
  let _ ← orUnsuitable e.overrides?
  let p ← s.targetName permission
  let terms ← orBroken terms
  s.change name .account id (.link (.override id isGrant p terms)) fun e =>
    e.overrides?.map Reply.overrides

/-- Registers what a definition describes, and shows it. -/
def stepDefine (s : Session) (name : String) (d : Definition) :
    Except Fault (Session × Reply) := do
  let s ← s.apply name (.define d)
  let (_, _, e) ← s.find (.registered name d.kind (d.id?.getD (.plain "")))
  return (s, .entity e)

/-- What a registry replies to a question about it. -/
def ask (s : Session) (name : String) (reply : Registry → Except Error Reply) :
    Session × Except Fault Reply :=
  (s, do orFault (reply (← s.registry name)))

/-- What the entity that a reference leads to replies to a question about it. -/
def askEntity (s : Session) (ref : Ref) (reply : Names → Entity → Except Fault Reply) :
    Session × Except Fault Reply :=
  (s, do
    let (name, _, e) ← s.find ref
    reply (← s.registry name).names e)

/-- Builds a ready-made graph in a registry that may hold entities already. -/
def stepBuildInto (s : Session) (name preset : String) (root : Option String) :
    Session × Except Fault Reply :=
  match s.registry name, Preset.ofName preset with
  | .error fault, _ => (s, .error fault)
  | .ok _, .error e => (s, .error (.error e))
  | .ok r, .ok p =>
    match p.buildInto root r with
    | (r, none) => (s.put name r, .ok .done)
    | (r, some e) => (s.put name r, .error (.error e))

/-- Carries out a step that is directed at the registry under a name. -/
def step (s : Session) (name : String) : Step → Session × Except Fault Reply
  | .createRegistry schema auth => s.whole do
    let r ← orFault (Registry.create s.defaults schema auth)
    return (s.put name r, .texts [r.names.schema, r.names.authSchema])
  | .table table => s.ask name fun r =>
    .ok (.texts [r.names.table table, r.names.authTable table])
  | .define d => s.whole (s.stepDefine name d)
  | .script kind id script => s.whole do
    return (← s.apply name (.script kind id script), .done)
  -- Permissions are given one by one, and those before a failure stay.
  | .givePermissions owner permissions => s.stepPermissions owner permissions
  | .attachGroup role group terms => s.whole (s.stepGroup role group terms)
  | .assignRole account role => s.whole (s.stepRole account role)
  | .override account isGrant permission terms =>
    s.whole (s.stepOverride account isGrant permission terms)
  | .describe ref => s.askEntity ref fun _ e => .ok (.entity e)
  | .identifiers kind => s.ask name fun r => .ok (.texts (r.identifiers kind))
  | .emit ref => s.askEntity ref fun names e =>
    match e.emit names with
    | .ok emission => .ok (.emission emission)
    | .error failure => .error (.error (.emission failure))
  | .lookup ref => s.askEntity ref fun names e => do
    return .text (← orUnsuitable (e.lookup? names))
  | .display ref => s.askEntity ref fun _ e => do return .text (← orUnsuitable e.shown?)
  | .validate => s.ask name fun r => do
    r.validate
    return .done
  | .compile => s.ask name fun r =>
    let compiled := r.compile
    compiled.result.map (Reply.compiled compiled.log)
  | .generate => s.ask name fun r =>
    let generated := r.generate
    generated.result.map (Reply.generated generated.log)
  | .toScript => s.ask name fun r => r.toScript.result.map Reply.text
  | .buildPreset preset root => s.whole do
    let r ← orFault (Preset.buildNamed preset root s.defaults)
    return (s.put name r, .done)
  -- The commands of a preset that came before a failure stay as well.
  | .buildInto preset root => s.stepBuildInto name preset root

end Session

end AccessGraph
