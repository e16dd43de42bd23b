import Wei.Session

/-!
Several sessions in one engine. They share the store and the memory of source files. Sessions
share the modules that they have loaded if they were made to use one cache.
-/

namespace Wei

/-- Everything that is there between two turns. -/
structure Engine where
  store : Store
  caches : Arena ModuleCache
  sessions : Arena Session
  sources : SourceMemory
  deriving Inhabited

/-- What a turn of a session came to: the answer or the exit, what it wrote to the console, and
the texts that were parsed. -/
structure Turn (α : Type) where
  result : Except Exit α
  out : String
  err : String
  parsed : List (String × String)

namespace Engine

/-- No session has been made. -/
def initial : Engine := ⟨.initial, .empty, .empty, .empty⟩

/-- A new session, numbered in order. Without a cache to share it gets a new one. -/
def newSession (p : Engine) (verbose : Bool) (limits : Limits) (cache : Option Nat) : Engine :=
  let c := cache.getD p.caches.size
  { p with
    caches := if cache.isNone then p.caches.push .empty else p.caches
    sessions := p.sessions.push ⟨c, none, .empty, .blank verbose, limits⟩ }

/-- The state in which a session starts its turn. -/
def machine (p : Engine) (i : Nat) : Machine :=
  let session := p.sessions.get i
  ⟨⟨p.store, p.caches.get session.cache, ""⟩, session.module, session.stack, session.report, "",
    [], p.sources⟩

/-- Takes over the state in which a session ends its turn. -/
def absorb (p : Engine) (i : Nat) (m : Machine) : Engine :=
  let session := p.sessions.get i
  { store := m.world.store
    caches := p.caches.set session.cache m.world.cache
    sessions := p.sessions.set i
      { session with module := m.module, stack := m.stack, report := m.report }
    sources := m.sources }

/-- Gives a session a turn. -/
def turn {α : Type} (p : Engine) (i : Nat) (x : Eval α) : Turn α × Engine :=
  match x (p.machine i) with
  | .ok a m => (⟨.ok a, m.world.out, m.err, m.parsed⟩, p.absorb i m)
  | .error e m => (⟨.error e, m.world.out, m.err, m.parsed⟩, p.absorb i m)

end Engine

end Wei
