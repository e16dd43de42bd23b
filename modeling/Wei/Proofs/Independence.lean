import Mathlib.Data.List.Forall2
import Mathlib.Logic.Function.Basic
import Wei.Proofs.Agreement
import Wei.Proofs.Anonymity

/-!
Sessions that use different caches do not interfere. A host opens modules in its sessions, has trees
evaluated in the environments that it got so, and has files run. Each session answers what it would
answer if it were alone, and finds the same afterwards, up to the numbers of cells.

All sessions share one store. At all times it holds, for each session, an image of the store that
the session would have alone, and two of these images have only the class `object` in common, which
is never changed. What a turn of a session changes is in its own image, so it leaves the others as
they are.
-/

namespace Wei

/-! ### Addresses -/

namespace Store

variable {s : Store} {k : Kind}

/-- The store in which the instances that are still to be made get these addresses, in order. Where
instances are is up to the host, and scripts can see it when instances are printed. -/
def placing (s : Store) (a : Nat → Nat) : Store :=
  { s with
    addresses := fun n => if n < s.instances.size then s.addresses n else a (n - s.instances.size) }

@[simp] lemma census_placing (s : Store) (a : Nat → Nat) : (s.placing a).census = s.census := by
  funext k
  cases k <;> rfl

@[simp] lemma read_placing (s : Store) (a : Nat → Nat) (r : Ref k) :
    (s.placing a).read r = s.read r := by
  cases k <;> rfl

lemma address_placing (a : Nat → Nat) {r : Ref .inst} (hr : r.Live s.census) :
    (s.placing a).addresses r.index = s.addresses r.index :=
  if_pos hr

lemma address_placing_add (s : Store) (a : Nat → Nat) (u : Nat) :
    (s.placing a).addresses (s.census .inst + u) = a u := by
  have hafter : ¬ s.census .inst + u < s.instances.size := Nat.not_lt.mpr (Nat.le_add_right _ u)
  refine (if_neg hafter).trans (congrArg a ?_)
  exact Nat.add_sub_cancel_left _ _

lemma Sound.placing {strict : Bool} (h : s.Sound strict) (a : Nat → Nat) :
    (s.placing a).Sound strict := by
  refine ⟨?_, fun r hr => ?_⟩
  · rw [census_placing]
    exact h.object
  · rw [census_placing] at hr ⊢
    rw [read_placing]
    exact h.cell r hr

end Store

namespace Engine

/-- The engine in which the instances that are still to be made get these addresses. -/
def placing (p : Engine) (a : Nat → Nat) : Engine := { p with store := p.store.placing a }

/-- Instances can be given the addresses that they get anyway, so every turn is one in which they
are given some. -/
lemma placing_self (p : Engine) :
    p.placing (fun u => p.store.addresses (p.store.instances.size + u)) = p := by
  have haddresses : (p.store.placing fun u =>
      p.store.addresses (p.store.instances.size + u)).addresses = p.store.addresses := by
    funext n
    unfold Store.placing
    dsimp only
    split
    · rfl
    · next hn => rw [Nat.add_sub_cancel' (Nat.le_of_not_lt hn)]
  exact congrArg (fun a => { p with store := { p.store with addresses := a } }) haddresses

/-- The modules that a session has at hand. -/
def cacheOf (p : Engine) (i : Nat) : ModuleCache := p.caches.get (p.sessions.get i).cache

variable {p q : Engine} {i j : Nat}

lemma Sound.placing {strict : Bool} (h : p.Sound strict) (a : Nat → Nat) :
    (p.placing a).Sound strict := by
  refine ⟨h.store.placing a, fun c r hr => ?_, fun j r hr => ?_⟩
  · show r.Live (p.store.placing a).census
    rw [Store.census_placing]
    exact h.cache c r hr
  · show r.Live (p.store.placing a).census
    rw [Store.census_placing]
    exact h.module j r hr

lemma census_machine_placing (p : Engine) (a : Nat → Nat) (i : Nat) :
    ((p.placing a).machine i).census = p.store.census :=
  p.store.census_placing a

lemma cacheOf_absorb (p : Engine) (i : Nat) (m : Machine) :
    (p.absorb i m).cacheOf i = m.world.cache := by
  unfold cacheOf absorb
  dsimp only
  rw [Arena.get_set_self, Arena.get_set_self]

lemma session_absorb (p : Engine) (i : Nat) (m : Machine) :
    (p.absorb i m).sessions.get i =
      { p.sessions.get i with module := m.module, stack := m.stack, report := m.report } :=
  Arena.get_set_self _ _ _

lemma session_absorb_of_ne (p : Engine) (h : j ≠ i) (m : Machine) :
    (p.absorb i m).sessions.get j = p.sessions.get j :=
  Arena.get_set_of_ne _ h.symm _

end Engine

/-! ### Hosts at work -/

/-- A host at work: the engine, and the environments that each session has made for it, in order. -/
structure Hosting where
  engine : Engine
  environments : Nat → List (Ref .scope)

namespace Hosting

/-- What a host asks of a session. It can have trees evaluated in the environments that the session
has made, which are numbered. -/
inductive Request where
  | openModule (raw : String)
  | evaluate (limits : Limits) (node : Node) (environment : Nat)
  | runFile (limits : Limits) (raw : String)

/-- What a session answers: a new environment or a value. -/
inductive Reply where
  | environment (scope : Ref .scope)
  | value (v : Value)

/-- A step of a host: the session whose turn it is, what it is asked for, how texts are parsed and
their lines found, and the addresses of the instances that it makes. -/
structure Step where
  session : Nat
  request : Request
  parse : String → String → Parsed
  reader : LineReader
  addresses : Nat → Nat

/-- A step as its session sees it: what the session has answered, and the state after it. There is
no answer if there is no such environment. -/
structure Observation where
  reply : Option (Turn Reply)
  after : Hosting

/-- What a session does to meet a request. -/
def Request.eval (host : Host) (environments : List (Ref .scope)) : Request → Option (Eval Reply)
  | .openModule raw => some do return .environment (← Eval.openModule host raw)
  | .evaluate limits node e => environments[e]?.map fun scope => do
    return .value (← Eval.evaluate host limits node scope)
  | .runFile limits raw => some do return .value (← Eval.runFile host limits raw)

/-- The environment that has been made, if one has. -/
def made : Except Exit Reply → List (Ref .scope)
  | .ok (.environment scope) => [scope]
  | _ => []

/-- **Takes a step.** -/
def take (files : FileTree) (h : Hosting) (a : Step) : Observation :=
  match a.request.eval ⟨files, a.parse, a.reader⟩ (h.environments a.session) with
  | none => ⟨none, h⟩
  | some x =>
    let t := (h.engine.placing a.addresses).turn a.session x
    ⟨some t.1, t.2, Function.update h.environments a.session
      (h.environments a.session ++ made t.1.result)⟩

/-- What a session sees of a host that takes steps: its own ones. -/
def observations (files : FileTree) (i : Nat) : Hosting → List Step → List Observation
  | _, [] => []
  | h, a :: rest =>
    let seen := observations files i (h.take files a).after rest
    if a.session = i then h.take files a :: seen else seen

end Hosting

/-! ### Sameness -/

instance : Renamable Session := ⟨fun f x => { x with module := f.on x.module }⟩

instance {α : Type} [Renamable α] : Renamable (Turn α) :=
  ⟨fun f t => { t with result := f.on t.result }⟩

instance : Renamable Hosting.Reply where
  rename f
    | .environment scope => .environment (f.on scope)
    | .value v => .value (f.on v)

/-- **A session finds the same in both engines**, up to the renaming: the same cells, at the same
addresses, the same modules in its cache, and itself in the same state, which includes the module
that is current, the call stack and the report. -/
structure Engine.SameFor (f : Renaming) (i : Nat) (p q : Engine) : Prop where
  cell {k : Kind} (r : Ref k) :
    r.Live p.store.census → q.store.read (f.on r) = f.on (p.store.read r)
  address (r : Ref .inst) :
    r.Live p.store.census → q.store.addresses (f.on r).index = p.store.addresses r.index
  cache : q.cacheOf i = f.on (p.cacheOf i)
  session : q.sessions.get i = f.on (p.sessions.get i)

/-- **Two observations of a session are the same**, up to the renaming. What has been printed is the
same to the letter. -/
structure Hosting.Observation.Same (f : Renaming) (i : Nat) (o o' : Observation) : Prop where
  reply : o'.reply = f.on o.reply
  environments : o'.after.environments i = f.on (o.after.environments i)
  engine : o.after.engine.SameFor f i o'.after.engine

namespace Engine.SameFor

variable {f g : Renaming} {i : Nat} {p q : Engine}

/-- Only the cells that are there matter. -/
lemma congr (h : p.SameFor f i q) (hp : p.Sound false) (hfg : f.Agree g p.store.census) :
    p.SameFor g i q := by
  have hcache : f.on (p.cacheOf i) = g.on (p.cacheOf i) :=
    Renaming.on_map_congr fun r hr => hfg r (hp.cache _ r hr)
  have hmodule : f.on (p.sessions.get i).module = g.on (p.sessions.get i).module :=
    Renaming.on_option_congr fun r hr => hfg r (hp.module i r hr)
  refine ⟨fun r hr => ?_, fun r hr => ?_, h.cache.trans hcache, h.session.trans ?_⟩
  · rw [← hfg r hr, ← hfg.cell (hp.store.cell r hr)]
    exact h.cell r hr
  · rw [← hfg r hr]
    exact h.address r hr
  · exact congrArg (fun m => { p.sessions.get i with module := m }) hmodule

end Engine.SameFor

namespace Hosting

/-- The cells that there are. -/
abbrev census (h : Hosting) : Census := h.engine.store.census

/-- **The state `h` holds what session `i` would have alone**, which is `g`. -/
structure Tracks (f : Renaming) (files : FileTree) (i : Nat) (g h : Hosting) : Prop where
  sound : g.engine.Sound false
  object : g.engine.store.cls Store.object = Class.blank "object" none
  faithful : g.engine.sources.Faithful files
  faithful' : h.engine.sources.Faithful files
  live {k : Kind} {r : Ref k} : r.Live g.census → (f.on r).Live h.census
  same : g.engine.SameFor f i h.engine
  environments : h.environments i = f.on (g.environments i)
  environments_live : ∀ r ∈ g.environments i, r.Live g.census

/-- What a step of session `i` leaves alone: cells that are not its own, the addresses of instances
that are there, and what other sessions have. -/
structure Spares (files : FileTree) (i : Nat) (own : {k : Kind} → Ref k → Prop) (h h' : Hosting) :
    Prop where
  census_le : h.census ≤ h'.census
  read {k : Kind} {r : Ref k} :
    r.Live h.census → ¬ own r → h'.engine.store.read r = h.engine.store.read r
  object : h'.engine.store.cls Store.object = Class.blank "object" none
  address {r : Ref .inst} :
    r.Live h.census → h'.engine.store.addresses r.index = h.engine.store.addresses r.index
  cacheNumber (j : Nat) : (h'.engine.sessions.get j).cache = (h.engine.sessions.get j).cache
  session {j : Nat} : j ≠ i → h'.engine.sessions.get j = h.engine.sessions.get j
  cache {c : Nat} :
    c ≠ (h.engine.sessions.get i).cache → h'.engine.caches.get c = h.engine.caches.get c
  environments {j : Nat} : j ≠ i → h'.environments j = h.environments j
  faithful : h'.engine.sources.Faithful files

/-- Nothing dangling comes out of a session. -/
def Settled (n : Census) : Except Exit Reply → Prop
  | .ok (.environment scope) => scope.Live n
  | .ok (.value v) => v.Live n
  | .error e => e.Allowed (.lenient false) n

/-- **A step of session `i`**, taken alone from `g` and among the others from `h`, with a renaming
before and one after it. -/
structure Advances (f f' : Renaming) (files : FileTree) (i : Nat) (g h : Hosting)
    (o o' : Observation) : Prop where
  agree : f.Agree f' g.census
  grows : g.census ≤ o.after.census
  fresh {k : Kind} {r : Ref k} :
    r.Live o.after.census → (f'.on r).Live h.census → r.Live g.census
  tracks : Tracks f' files i o.after o'.after
  reply : o'.reply = f'.on o.reply
  settled : ∀ t ∈ o.reply, Settled o.after.census t.result
  spares : Spares files i (fun r => ∃ q, q.Live g.census ∧ f.on q = r) h o'.after

variable {f f' : Renaming} {files : FileTree} {i j : Nat} {g h h' : Hosting}

lemma made_on (f : Renaming) (x : Except Exit Reply) : made (f.on x) = f.on (made x) := by
  cases x with
  | error e => rfl
  | ok a =>
    cases a with
    | environment scope => rfl
    | value v => rfl

lemma Settled.made_live {n : Census} {x : Except Exit Reply} (hx : Settled n x) :
    ∀ r ∈ made x, r.Live n := by
  intro r hr
  cases x with
  | error e => cases hr
  | ok a =>
    cases a with
    | environment scope =>
      obtain rfl := List.mem_singleton.mp hr
      exact hx
    | value v => cases hr

lemma Settled.on_congr {n : Census} {x : Except Exit Reply} (hx : Settled n x)
    (hff' : f.Agree f' n) : f.on x = f'.on x := by
  cases x with
  | error e => exact congrArg Except.error (hff'.exit hx)
  | ok a =>
    cases a with
    | environment scope => exact congrArg (Except.ok ∘ Reply.environment) (hff' scope hx)
    | value v => exact congrArg (Except.ok ∘ Reply.value) (hff'.value hx)

/-! ### Requests -/

/-- With renamed environments a session meets a request in the same way, if it can. -/
lemma Request.eval_mirrors (request : Request) (f : Renaming) (host : Host) {m : Machine}
    {environments : List (Ref .scope)} (hlive : ∀ r ∈ environments, r.Live m.census) :
    (request.eval host environments = none ∧ request.eval host (f.on environments) = none) ∨
      ∃ x y, request.eval host environments = some x ∧
        request.eval host (f.on environments) = some y ∧
        x.Behaves m (fun s a => Settled s.census (.ok a)) ∧
        ∀ base n, x.Mirrors f base host.files y m n := by
  have hR : ∀ c, (Regime.lenient false).crash c := fun _ => trivial
  cases request with
  | openModule raw =>
    refine .inr ⟨_, _, rfl, rfl, ?_, ?_⟩
    · exact .bind (Eval.openModule_does hR raw) fun _ _ _ _ hscope => .pure hscope
    · exact fun _ _ => .bind_pure (Eval.openModule_mirrors host raw) fun _ => rfl
  | runFile limits raw =>
    refine .inr ⟨_, _, rfl, rfl, ?_, ?_⟩
    · exact .bind (Eval.runFile_does hR (fun _ _ _ _ => .of_lax _) limits raw)
        fun _ _ _ _ hv => .pure hv
    · exact fun _ _ => .bind_pure (Eval.runFile_mirrors limits raw) fun _ => rfl
  | evaluate limits node e =>
    have hfind : (f.on environments)[e]? = f.on environments[e]? := f.getElem?_on environments e
    unfold Request.eval
    dsimp only
    rw [hfind]
    cases hscope : environments[e]? with
    | none => exact .inl ⟨rfl, rfl⟩
    | some scope =>
      have hscope : scope.Live m.census := hlive scope (List.mem_of_getElem? hscope)
      refine .inr ⟨_, _, rfl, rfl, ?_, ?_⟩
      · exact .bind (Eval.evaluate_does hR (fun _ _ _ _ => .of_lax _) limits hscope (.of_lax _))
          fun _ _ _ _ hv => .pure hv
      · exact fun _ _ => .bind_pure (Eval.evaluate_mirrors host limits node hscope) fun _ => rfl

/-! ### Steps -/

namespace Tracks

variable (ht : Tracks f files i g h)
include ht

/-- The class `object` is as it was made. -/
lemma object' : h.engine.store.cls Store.object = Class.blank "object" none := by
  have hcell := ht.same.cell Store.object ht.sound.store.object
  rw [f.on_object] at hcell
  exact hcell.trans (congrArg f.on ht.object)

/-- When the turn of the session comes, the state holds an image of what it would have alone, in
step about the cells that are still to be made. -/
lemma exists_image (a : Nat → Nat) :
    ∃ f' : Renaming, f.Agree f' g.census ∧ (∀ k, f'.index k (g.census k) = h.census k) ∧
      Machine.Image f' (h.engine.store.placing a) files ((g.engine.placing a).machine i)
        ((h.engine.placing a).machine i) := by
  obtain ⟨f', hagree, haligned⟩ := f.exists_aligned ht.sound.store.object ht.live
  have hsame := ht.same.congr ht.sound hagree
  have hstore : Store.Image f' (h.engine.store.placing a) (g.engine.store.placing a)
      (h.engine.store.placing a) := by
    refine ⟨fun k u => ?_, fun r hr => ?_, fun _ _ => rfl, fun n => ?_, rfl, ?_, ht.object⟩
    · rw [Store.census_placing, Store.census_placing]
      exact haligned k u
    · rw [Store.census_placing] at hr
      rw [Store.read_placing, Store.read_placing]
      exact hsame.cell r hr
    · -- instances that are there stay where they are, and new ones are put at the same place
      by_cases hn : n < g.census .inst
      · have hr : (⟨n⟩ : Ref .inst).Live g.census := hn
        have hr' : (f'.on (⟨n⟩ : Ref .inst)).Live h.census := hagree _ hr ▸ ht.live hr
        have hold := Store.address_placing a hr
        have hold' := Store.address_placing a hr'
        exact hold'.trans ((hsame.address _ hr).trans hold.symm)
      · obtain ⟨u, rfl⟩ := Nat.exists_eq_add_of_le (Nat.le_of_not_lt hn)
        rw [haligned, Store.address_placing_add, Store.address_placing_add]
    · rw [Store.census_placing]
      exact ht.sound.store.object
  have hmodule := congrArg Session.module hsame.session
  have hstack := congrArg Session.stack hsame.session
  have hreport := congrArg Session.report hsame.session
  exact ⟨f', hagree, fun k => haligned k 0, hstore, hsame.cache, rfl, hmodule, hstack, hreport, rfl,
    rfl, ht.faithful, ht.faithful'⟩

lemma environments_congr (hagree : f.Agree f' g.census) :
    h.environments i = f'.on (g.environments i) :=
  ht.environments.trans (Renaming.on_list_congr fun r hr => hagree r (ht.environments_live r hr))

/-! A turn of the session, of which it is known what it comes to, alone and in the image. -/

section

variable {a : Nat → Nat} (hagree : f.Agree f' g.census) {m n : Machine}
  (hi : Machine.Image f' (h.engine.store.placing a) files m n) {x : Except Exit Reply}
include hagree hi

/-- The state still holds what the session would have alone. -/
lemma absorb (hm : m.Sound false) (hgrows : g.census ≤ m.census) (hx : Settled m.census x) :
    Tracks f' files i
      ⟨(g.engine.placing a).absorb i m,
        Function.update g.environments i (g.environments i ++ made x)⟩
      ⟨(h.engine.placing a).absorb i n,
        Function.update h.environments i (h.environments i ++ made (f'.on x))⟩ := by
  have hcensus : (g.engine.placing a).store.census ≤ m.census :=
    (Store.census_placing g.engine.store a).symm ▸ hgrows
  have hsession : h.engine.sessions.get i = f'.on (g.engine.sessions.get i) :=
    (ht.same.congr ht.sound hagree).session
  have henvironments := ht.environments_congr hagree
  refine ⟨(ht.sound.placing a).absorb hm hcensus, hi.store.object, hi.faithful, hi.faithful',
    hi.store.live_iff.mpr, ⟨fun r hr => hi.store.read r hr, fun r _ => hi.store.addresses r.index,
      ?_, ?_⟩, ?_, fun r hr => ?_⟩
  · rw [Engine.cacheOf_absorb, Engine.cacheOf_absorb]
    exact hi.cache
  · rw [Engine.session_absorb, Engine.session_absorb]
    show { h.engine.sessions.get i with module := n.module, stack := n.stack, report := n.report } =
      ({ g.engine.sessions.get i with
          module := f'.on m.module, stack := m.stack, report := m.report } : Session)
    rw [hsession, hi.module, hi.stack, hi.report]
    rfl
  · dsimp only
    rw [Function.update_self, Function.update_self, made_on, henvironments]
    exact (f'.on_append _ _).symm
  · dsimp only at hr
    rw [Function.update_self] at hr
    rcases List.mem_append.mp hr with hr | hr
    · exact (ht.environments_live r hr).mono hgrows
    · exact hx.made_live r hr

omit ht in
/-- Nothing outside of the image of what the session had has changed. -/
lemma spares (haligned : ∀ k, f'.index k (g.census k) = h.census k) (hgrows : g.census ≤ m.census)
    (environments : List (Ref .scope)) :
    Spares files i (fun r => ∃ q, q.Live g.census ∧ f.on q = r) h
      ⟨(h.engine.placing a).absorb i n, Function.update h.environments i environments⟩ where
  census_le k := by
    have hend : f'.index k (m.census k) = n.census k := hi.store.aligned k 0
    show h.census k ≤ n.census k
    rw [← haligned, ← hend]
    exact (f'.strictMono k).monotone (hgrows k)
  read := by
    intro k r hr hown
    refine (hi.store.frame r fun q hq => hown ?_).trans (Store.read_placing _ _ r)
    have hq' : q.Live g.census := (f'.live_iff (haligned k)).mp (hq ▸ hr)
    exact ⟨q, hq', (hagree q hq').trans hq⟩
  object := by
    have hcell := hi.store.cls Store.object
    rw [f'.on_object] at hcell
    exact hcell.trans (congrArg f'.on hi.store.object)
  address := by
    intro r hr
    show n.world.store.addresses r.index = _
    rw [hi.store.addresses_eq]
    exact Store.address_placing a hr
  cacheNumber j := by
    by_cases hj : j = i
    · have hsession := Engine.session_absorb (h.engine.placing a) i n
      rw [hj]
      exact (congrArg Session.cache hsession :)
    · exact congrArg Session.cache (Engine.session_absorb_of_ne (h.engine.placing a) hj n)
  session hj := Engine.session_absorb_of_ne (h.engine.placing a) hj n
  cache hc := Arena.get_set_of_ne _ hc.symm _
  environments hj := Function.update_of_ne hj _ _
  faithful := hi.faithful'

/-- **What the turn comes to.** -/
lemma advances (haligned : ∀ k, f'.index k (g.census k) = h.census k) (hm : m.Sound false)
    (hgrows : g.census ≤ m.census) (hx : Settled m.census x) :
    Advances f f' files i g h
      ⟨some ⟨x, m.world.out, m.err, m.parsed⟩, (g.engine.placing a).absorb i m,
        Function.update g.environments i (g.environments i ++ made x)⟩
      ⟨some ⟨f'.on x, n.world.out, n.err, n.parsed⟩, (h.engine.placing a).absorb i n,
        Function.update h.environments i (h.environments i ++ made (f'.on x))⟩ where
  agree := hagree
  grows := hgrows
  fresh _ := (f'.live_iff (haligned _)).mp
  reply := by
    show some (Turn.mk (f'.on x) n.world.out n.err n.parsed) =
      some (Turn.mk (f'.on x) m.world.out m.err m.parsed)
    rw [hi.out, hi.err, hi.parsed]
  settled t ht := by
    obtain rfl := Option.some.inj ht
    exact hx
  tracks := ht.absorb hagree hi hm hgrows hx
  spares := spares hagree hi haligned hgrows _

end

/-- A request that cannot be met changes nothing. -/
lemma advances_none : Advances f f files i g h ⟨none, g⟩ ⟨none, h⟩ where
  agree := Renaming.Agree.refl f _
  grows := le_rfl
  fresh hr _ := hr
  reply := rfl
  settled := nofun
  tracks := ht
  spares := ⟨le_rfl, fun _ _ => rfl, ht.object', fun _ => rfl, fun _ => rfl, fun _ => rfl,
    fun _ => rfl, fun _ => rfl, ht.faithful'⟩

/-- **One step of the session.** -/
theorem take (a : Step) (ha : a.session = i) :
    ∃ f' : Renaming, Advances f f' files i g h (g.take files a) (h.take files a) := by
  subst ha
  obtain ⟨f', hagree, haligned, hstart⟩ := ht.exists_image a.addresses
  have hm := (ht.sound.placing a.addresses).machine a.session
  have hcensus := g.engine.census_machine_placing a.addresses a.session
  have hlive : ∀ r ∈ g.environments a.session,
      r.Live ((g.engine.placing a.addresses).machine a.session).census := by
    rw [hcensus]
    exact ht.environments_live
  have hgrows {m : Machine} (hrun : (Machine.conduct (.lenient false)).Run
      ((g.engine.placing a.addresses).machine a.session) m) : g.census ≤ m.census := by
    rw [census, ← hcensus]
    exact hrun.census_le hm
  have heval := a.request.eval_mirrors f' ⟨files, a.parse, a.reader⟩ hlive
  rw [← ht.environments_congr hagree] at heval
  unfold Hosting.take
  rcases heval with ⟨hx, hy⟩ | ⟨x, y, hx, hy, hdoes, hmirrors⟩
  · rw [hx, hy]
    exact ⟨f, ht.advances_none⟩
  · rw [hx, hy]
    dsimp only
    refine ⟨f', ?_⟩
    have hdoes := hdoes hm
    have hresult := hmirrors _ _ hm hstart
    unfold Engine.turn
    generalize x _ = r, y _ = r' at hdoes hresult ⊢
    rcases hresult.cases with ⟨b, m, n, rfl, rfl, hi⟩ | ⟨e, m, n, rfl, rfl, hi⟩
    · exact ht.advances hagree hi haligned (hdoes.1.sound hm) (hgrows hdoes.1) hdoes.2
    · exact ht.advances hagree hi haligned (hdoes.1.sound hm) (hgrows hdoes.1) hdoes.2

/-- **A step of another session** leaves what this one has alone. -/
theorem spared {own : {k : Kind} → Ref k → Prop} (hs : Spares files j own h h') (hij : i ≠ j)
    (hcaches : (h.engine.sessions.get i).cache ≠ (h.engine.sessions.get j).cache)
    (hown : ∀ {k : Kind} (r : Ref k), r.Live g.census → own (f.on r) → (f.on r).IsObject) :
    Tracks f files i g h' := by
  refine ⟨ht.sound, ht.object, ht.faithful, hs.faithful, fun hr => (ht.live hr).mono hs.census_le,
    ⟨fun {k} r hr => ?_, fun r hr => ?_, ?_, ?_⟩, ?_, ht.environments_live⟩
  · by_cases hr' : own (f.on r)
    · -- the one cell that all sessions have in common
      obtain ⟨rfl, hzero⟩ := f.on_isObject.mp (hown r hr hr')
      obtain rfl : r = Store.object := Ref.index_inj.mp hzero
      rw [f.on_object]
      exact hs.object.trans (congrArg f.on ht.object).symm
    · rw [hs.read (ht.live hr) hr']
      exact ht.same.cell r hr
  · rw [hs.address (ht.live hr)]
    exact ht.same.address r hr
  · have hcache : h'.engine.cacheOf i = h.engine.cacheOf i := by
      unfold Engine.cacheOf
      rw [hs.session hij]
      exact hs.cache hcaches
    exact hcache.trans ht.same.cache
  · exact (hs.session hij).trans ht.same.session
  · exact (hs.environments hij).trans ht.environments

end Tracks

lemma Observation.Same.congr {g : Renaming} {o o' : Observation} (h : o.Same f i o')
    (hsound : o.after.engine.Sound false)
    (hlive : ∀ r ∈ o.after.environments i, r.Live o.after.census)
    (hsettled : ∀ t ∈ o.reply, Settled o.after.census t.result)
    (hfg : f.Agree g o.after.census) : o.Same g i o' := by
  refine ⟨h.reply.trans ?_, h.environments.trans ?_, h.engine.congr hsound hfg⟩
  · exact Renaming.on_option_congr fun t ht =>
      congrArg (Turn.mk · t.out t.err t.parsed) ((hsettled t ht).on_congr hfg)
  · exact Renaming.on_list_congr fun r hr => hfg r (hlive r hr)

lemma Advances.same {o o' : Observation} (h' : Advances f f' files i g h o o') {e : Renaming}
    (he : f'.Agree e o.after.census) : o.Same e i o' :=
  Observation.Same.congr ⟨h'.reply, h'.tracks.environments, h'.tracks.same⟩ h'.tracks.sound
    h'.tracks.environments_live h'.settled he

/-! ### Runs -/

/-- **All the sessions in `S` are independent**: the state holds what each of them would have alone,
they use different caches, and they have no cell in common other than the class `object`. -/
structure Apart (files : FileTree) (S : Nat → Prop) (f : Nat → Renaming) (alone : Nat → Hosting)
    (h : Hosting) : Prop where
  tracks {i : Nat} : S i → Tracks (f i) files i (alone i) h
  caches {i j : Nat} : S i → S j → i ≠ j →
    (h.engine.sessions.get i).cache ≠ (h.engine.sessions.get j).cache
  disjoint {i j : Nat} : S i → S j → i ≠ j → ∀ {k : Kind} {r q : Ref k},
    r.Live (alone i).census → q.Live (alone j).census → (f i).on r = (f j).on q →
      ((f i).on r).IsObject

variable {S : Nat → Prop} {fs : Nat → Renaming} {alone : Nat → Hosting}

/-- They are so after a step of one of them. -/
lemma Apart.advance (hap : Apart files S fs alone h) (hi : S i) {o o' : Observation}
    (hadv : Advances (fs i) f' files i (alone i) h o o') :
    Apart files S (Function.update fs i f') (Function.update alone i o.after) o'.after := by
  -- what is made in the step is new to all others
  have hdisjoint {j : Nat} (hj : S j) (hij : i ≠ j) {k : Kind} {r q : Ref k}
      (hr : r.Live o.after.census) (hq : q.Live (alone j).census) (heq : f'.on r = (fs j).on q) :
      (f'.on r).IsObject := by
    have hlive : (f'.on r).Live h.census := heq ▸ (hap.tracks hj).live hq
    have hold := hadv.fresh hr hlive
    rw [← hadv.agree r hold] at heq ⊢
    exact hap.disjoint hi hj hij hold hq heq
  refine ⟨fun {j} hj => ?_, fun {j l} hj hl hjl => ?_, fun {j l} hj hl hjl {k r q} hr hq heq => ?_⟩
  · by_cases hij : j = i
    · subst hij
      rw [Function.update_self, Function.update_self]
      exact hadv.tracks
    · rw [Function.update_of_ne hij, Function.update_of_ne hij]
      refine (hap.tracks hj).spared hadv.spares hij (hap.caches hj hi hij) fun r hr hown => ?_
      obtain ⟨q, hq, heq⟩ := hown
      exact hap.disjoint hj hi hij hr hq heq.symm
  · rw [hadv.spares.cacheNumber, hadv.spares.cacheNumber]
    exact hap.caches hj hl hjl
  · by_cases hij : j = i
    · subst hij
      rw [Function.update_self] at hr heq ⊢
      rw [Function.update_of_ne hjl.symm] at hq heq
      exact hdisjoint hl hjl hr hq heq
    · rw [Function.update_of_ne hij] at hr heq ⊢
      by_cases hil : l = i
      · subst hil
        rw [Function.update_self] at hq heq
        rw [heq]
        exact hdisjoint hj (Ne.symm hij) hq hr heq.symm
      · rw [Function.update_of_ne hil] at hq heq
        exact hap.disjoint hj hl hjl hr hq heq

/-- A session that is not asked sees nothing. -/
lemma observations_of_no_step (h : Hosting) {steps : List Step}
    (hno : ∀ a ∈ steps, a.session ≠ i) : observations files i h steps = [] := by
  induction steps generalizing h with
  | nil => rfl
  | cons a rest ih =>
    rw [observations, if_neg (hno a List.mem_cons_self)]
    exact ih _ fun b hb => hno b (List.mem_cons_of_mem a hb)

/-- **What a session sees** while all of them take steps is what it sees when it is alone. -/
theorem Apart.observations_same (hap : Apart files S fs alone h) (hi : S i) (steps : List Step)
    (hsteps : ∀ a ∈ steps, S a.session) :
    ∃ f, (fs i).Agree f (alone i).census ∧
      List.Forall₂ (Observation.Same f i)
        (observations files i (alone i) (steps.filter (·.session = i)))
        (observations files i h steps) := by
  -- a step extends the renaming of its session, so the last one is right about all that was there
  induction steps generalizing fs alone h with
  | nil => exact ⟨fs i, Renaming.Agree.refl _ _, .nil⟩
  | cons a rest ih =>
    have ha : S a.session := hsteps a List.mem_cons_self
    have hrest : ∀ b ∈ rest, S b.session := fun b hb => hsteps b (List.mem_cons_of_mem a hb)
    obtain ⟨f', hadv⟩ := (hap.tracks ha).take a rfl
    obtain ⟨e, he, hsame⟩ := ih (hap.advance ha hadv) hrest
    by_cases hai : a.session = i
    · subst hai
      rw [Function.update_self] at he hsame
      rw [Function.update_self] at he
      refine ⟨e, hadv.agree.trans he hadv.grows, ?_⟩
      rw [List.filter_cons_of_pos (by simp), observations, observations, if_pos rfl, if_pos rfl]
      exact .cons (hadv.same he) hsame
    · have hne : i ≠ a.session := Ne.symm hai
      rw [Function.update_of_ne hne] at he hsame
      rw [Function.update_of_ne hne] at he
      refine ⟨e, he, ?_⟩
      rw [List.filter_cons_of_neg (by simpa using hai), observations, if_neg hai]
      exact hsame

end Hosting

/-! ### From the start -/

/-- Sessions may have been made, but nothing has been done yet: only the class `object` is there, no
module has been loaded or is current, and no source file has been looked at. -/
structure Engine.Fresh (p : Engine) : Prop where
  store : p.store = .initial
  caches (c : Nat) : p.caches.get c = .empty
  module (i : Nat) : (p.sessions.get i).module = none
  sources : p.sources = .empty

/-- All cells keep their numbers. -/
def Renaming.same : Renaming := ⟨fun _ i => i, fun _ => strictMono_id, rfl⟩

lemma Store.isObject_of_live_initial {k : Kind} {r : Ref k} (hr : r.Live Store.initial.census) :
    r.IsObject := by
  cases k with
  | cls => exact ⟨rfl, Nat.lt_one_iff.mp hr⟩
  | _ => exact absurd hr (Nat.not_lt_zero _)

namespace Engine

variable {p : Engine}

lemma fresh_initial : initial.Fresh where
  store := rfl
  caches c := Arena.get_of_size_le _ (Nat.zero_le c)
  module i := congrArg Session.module (Arena.get_of_size_le _ (Nat.zero_le i))
  sources := rfl

namespace Fresh

variable (hp : p.Fresh)
include hp

lemma newSession (verbose : Bool) (limits : Limits) (cache : Option Nat) :
    (p.newSession verbose limits cache).Fresh where
  store := hp.store
  caches c := by
    unfold Engine.newSession
    dsimp only
    split
    · rw [Arena.get_push]
      split
      · rfl
      · exact hp.caches c
    · exact hp.caches c
  module i := by
    unfold Engine.newSession
    rw [Arena.get_push]
    split
    · rfl
    · exact hp.module i
  sources := hp.sources

lemma sound : p.Sound false := by
  refine ⟨hp.store ▸ sound_initial.store, fun c r hr => ?_, fun i r hr => ?_⟩
  · rw [hp.caches] at hr
    cases hr
  · rw [hp.module] at hr
    cases hr

lemma isObject_of_live {k : Kind} {r : Ref k} (hr : r.Live p.store.census) : r.IsObject :=
  Store.isObject_of_live_initial (hp.store ▸ hr)

lemma sameFor (i : Nat) : p.SameFor .same i p := by
  have hobject : p.store.cls Store.object = Class.blank "object" none := hp.store ▸ rfl
  refine ⟨fun {k} r hr => ?_, fun r _ => rfl, ?_, ?_⟩
  · obtain ⟨rfl, hzero⟩ := hp.isObject_of_live hr
    obtain rfl : r = Store.object := Ref.index_inj.mp hzero
    exact hobject.trans (congrArg Renaming.same.on hobject).symm
  · have hempty : p.cacheOf i = .empty := hp.caches _
    rw [hempty]
    rfl
  · have hmodule : Renaming.same.on (p.sessions.get i).module = (p.sessions.get i).module := by
      rw [hp.module]
      rfl
    exact (congrArg (fun m => { p.sessions.get i with module := m }) hmodule).symm

end Fresh

end Engine

namespace Hosting

/-- A host that has not got anything from its sessions. -/
def start (p : Engine) : Hosting := ⟨p, fun _ => []⟩

variable {p : Engine}

lemma tracks_start (hp : p.Fresh) (files : FileTree) (i : Nat) :
    Tracks .same files i (start p) (start p) where
  sound := hp.sound
  object := hp.store ▸ rfl
  faithful := hp.sources ▸ nofun
  faithful' := hp.sources ▸ nofun
  live hr := hr
  same := hp.sameFor i
  environments := rfl
  environments_live := nofun

/-- **Independent sessions do not interfere.** Whatever hosts ask of sessions that use different
caches, in any order, each session answers what it answers if it is asked alone, and after each of
its steps it finds the same: what it has got, and what is bound in its environments, the modules in
its cache with what they export, and its report. That is so up to a renaming of cells, which is
one and the same for all steps. -/
theorem sessions_do_not_interfere (hp : p.Fresh) (files : FileTree) (steps : List Step)
    (hcaches : ∀ a ∈ steps, ∀ b ∈ steps, a.session ≠ b.session →
      (p.sessions.get a.session).cache ≠ (p.sessions.get b.session).cache) (i : Nat) :
    ∃ f : Renaming, List.Forall₂ (Observation.Same f i)
      (observations files i (start p) (steps.filter (·.session = i)))
      (observations files i (start p) steps) := by
  by_cases hi : ∃ a ∈ steps, a.session = i
  · have hapart : Apart files (fun j => ∃ a ∈ steps, a.session = j) (fun _ => .same)
        (fun _ => start p) (start p) := by
      refine ⟨fun {j} _ => tracks_start hp files j, ?_, ?_⟩
      · rintro _ _ ⟨a, ha, rfl⟩ ⟨b, hb, rfl⟩ hab
        exact hcaches a ha b hb hab
      · intro _ _ _ _ _ k r q hr _ _
        exact Renaming.same.on_isObject.mpr (hp.isObject_of_live hr)
    obtain ⟨f, -, hsame⟩ := hapart.observations_same hi steps fun a ha => ⟨a, ha, rfl⟩
    exact ⟨f, hsame⟩
  · have hno : ∀ a ∈ steps, a.session ≠ i := fun a ha hai => hi ⟨a, ha, hai⟩
    refine ⟨.same, ?_⟩
    rw [observations_of_no_step _ hno,
      observations_of_no_step _ fun a ha => hno a (List.mem_of_mem_filter ha)]
    exact .nil

/-- Two sessions bind the same name, and one of them then prints what it has bound. Its environment
and its list have other numbers than they have if it is alone. -/
theorem one_name_in_two_sessions :
    let p := (Engine.initial.newSession false .standard none).newSession false .standard none
    let files := FileTree.empty ⟨[]⟩
    let step (i : Nat) (request : Request) : Step :=
      ⟨i, request, fun _ _ => .syntaxError "", Text.line?, fun n => n⟩
    let bind (n : Int) : Request :=
      .evaluate ⟨4, 1⟩ (.stmt (.mk 1 (.declare "x" (some (.list [.literal (.int n)])) false))) 0
    let print : Request := .evaluate ⟨4, 1⟩ (.expr (.call (.name "print") [.name "x"])) 0
    let steps := [step 0 (.openModule ""), step 1 (.openModule ""), step 0 (bind 1),
      step 1 (bind 2), step 0 (bind 3), step 1 print]
    let alone := observations files 1 (start p) [step 1 (.openModule ""), step 1 (bind 2),
      step 1 print]
    let among := observations files 1 (start p) steps
    alone.map (fun o => o.after.environments 1) = [[⟨0⟩], [⟨0⟩], [⟨0⟩]] ∧
      among.map (fun o => o.after.environments 1) = [[⟨1⟩], [⟨1⟩], [⟨1⟩]] ∧
      among.map (fun o => o.reply.map (·.out)) = [some "", some "", some "[2]\n"] ∧
      ∃ f : Renaming, List.Forall₂ (Observation.Same f 1) alone among := by
  intro p files step bind print steps alone among
  have hp : p.Fresh := (Engine.fresh_initial.newSession false .standard none).newSession false
    .standard none
  have hcaches : ∀ a ∈ steps, ∀ b ∈ steps, a.session ≠ b.session →
      (p.sessions.get a.session).cache ≠ (p.sessions.get b.session).cache := by
    have hsession : ∀ a ∈ steps, a.session = 0 ∨ a.session = 1 := by simp [steps, step]
    intro a ha b hb hab
    rcases hsession a ha with ha | ha <;> rcases hsession b hb with hb | hb <;> rw [ha, hb] at hab ⊢
    · exact absurd rfl hab
    · decide
    · decide
    · exact absurd rfl hab
  have halone : alone.map (fun o => o.after.environments 1) = [[⟨0⟩], [⟨0⟩], [⟨0⟩]] := by
    decide +kernel
  have hamong : among.map (fun o => o.after.environments 1) = [[⟨1⟩], [⟨1⟩], [⟨1⟩]] := by
    decide +kernel
  have hout : among.map (fun o => o.reply.map (·.out)) = [some "", some "", some "[2]\n"] := by
    decide +kernel
  exact ⟨halone, hamong, hout, sessions_do_not_interfere hp files steps hcaches 1⟩

end Hosting

end Wei
