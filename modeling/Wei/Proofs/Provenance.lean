import Wei.Proofs.Origins

/-!
What the modules in a cache have come to.

A module is in the cache before its text is evaluated. So there are modules in it whose texts are
still evaluated, and an import of these is answered as well: this is how modules can load each
other. In one turn there are no others than these and those whose texts have come to an end: if a
text fails, so does all that is around it, and the turn is over. But its module stays in the cache.
In later turns imports are answered with it, like with a module that has been loaded.
-/

namespace Wei

/-! ### Imports that evaluate a text -/

/-- An import evaluates the text at a path. In this state, when its name is known, the path is not
in the cache, and the text is that of a program. -/
structure Evaluator.Loading (parts : Evaluator) (host : Host) (own : Ref .scope) (e : Expr)
    (m : Machine) (path : String) (p : Program) (m₁ : Machine) : Prop where
  name : ∃ name : String, parts.expr own e m = .ok (.str name) m₁ ∧
    host.find m₁.world.cache name = .file path
  read : (host.read path).2 = .ok p

/-- What the program of the text comes to, in the module that has been made for it. -/
def Evaluator.text (parts : Evaluator) (host : Host) (path : String) (p : Program) (m₁ : Machine) :
    Outcome Value :=
  parts.program ⟨m₁.world.store.scopes.size⟩ p (m₁.atText host path)

namespace Evaluator

variable {parts : Evaluator} {host : Host} {own : Ref .scope} {e : Expr} {m m₁ m₂ : Machine}
  {path : String} {p : Program}

/-- The frame is taken off and the module left when the program has come to its end. -/
lemma moduleText_of_ok {r : Ref .module} {scope : Ref .scope} {w : Value} {m' : Machine}
    (h : parts.program scope p { m with module := some r, stack := m.stack.push path "<module>" } =
      .ok w m') :
    parts.moduleText r path scope p m =
      .ok (.module r) { m' with module := m.module, stack := m'.stack.pop } := by
  refine EStateM.bind_of_ok (a := w) ?_
  unfold Eval.withModule Eval.withFrame
  dsimp only
  rw [h]

/-- A name is answered as one string only. -/
lemma name_unique {r : Outcome Value} {name name' : String} (h : r = .ok (.str name) m₁)
    (h' : r = .ok (.str name') m₂) : name = name' ∧ m₁ = m₂ := by
  have hsame := h.symm.trans h'
  simp only [EStateM.Result.ok.injEq, Value.str.injEq, Text.ofString_inj] at hsame
  exact hsame

/-- What is left of an import when its name is known. -/
lemma Loading.run_eq (h : parts.Loading host own e m path p m₁) (rounds : Nat) :
    (parts.deepen (load host) rounds).expr own (.load e) m =
      parts.moduleText ⟨m₁.world.store.modules.size⟩ path ⟨m₁.world.store.scopes.size⟩ p
        ((m₁.reading host path).addModule path) := by
  obtain ⟨name, hname, hfind⟩ := h.name
  have hload : (parts.deepen (load host) rounds).expr own (.load e) m = load host parts name m₁ :=
    evalExpr_load_of_ok hname
  rw [hload, load_of_file parts hfind h.read]

/-- **An import answers its module if the text comes to its end**, or to a value that it returns. -/
lemma Loading.run_of_ok {w : Value} (h : parts.Loading host own e m path p m₁)
    (hw : parts.text host path p m₁ = .ok w m₂) (rounds : Nat) :
    (parts.deepen (load host) rounds).expr own (.load e) m =
      .ok (.module ⟨m₁.world.store.modules.size⟩)
        { m₂ with module := m₁.module, stack := m₂.stack.pop } := by
  rw [h.run_eq]
  exact moduleText_of_ok hw

/-- An import exits if the text does. -/
lemma Loading.run_of_error {x : Exit} (h : parts.Loading host own e m path p m₁)
    (hx : parts.text host path p m₁ = .error x m₂) (rounds : Nat) :
    (parts.deepen (load host) rounds).expr own (.load e) m =
      .error x { m₂ with module := m₁.module, stack := m₂.stack.pop } := by
  rw [h.run_eq]
  exact moduleText_of_error hx

/-- **How imports are answered**: with a module of the cache, or with a new one whose text has come
to its end. -/
lemma answer_cases {rounds : Nat} {v : Value} {m' : Machine}
    (h : (parts.deepen (load host) rounds).expr own (.load e) m = .ok v m') :
    ∃ (name : String) (m₁ : Machine), parts.expr own e m = .ok (.str name) m₁ ∧
      ((∃ r, host.find m₁.world.cache name = .cached r ∧ v = .module r ∧ m' = m₁) ∨
        ∃ path p w m₂, host.find m₁.world.cache name = .file path ∧
          parts.Loading host own e m path p m₁ ∧ parts.text host path p m₁ = .ok w m₂ ∧
          v = .module ⟨m₁.world.store.modules.size⟩ ∧
          m' = { m₂ with module := m₁.module, stack := m₂.stack.pop }) := by
  cases hv : parts.expr own e m with
  | error x m₁ => cases (EStateM.bind_of_error hv).symm.trans h
  | ok u m₁ =>
    cases u with
    | str t =>
      have hencode := (EStateM.bind_of_ok hv).symm.trans h
      obtain ⟨name, ht⟩ : ∃ name, t.encode = .ok name := by
        change (Eval.orCrash t.encode >>= fun x => load host parts x) m₁ = _ at hencode
        cases ht : t.encode with
        | error c =>
          rw [ht] at hencode
          cases hencode
        | ok name => exact ⟨name, rfl⟩
      obtain rfl := Text.eq_of_encode ht
      have hload : load host parts name m₁ = .ok v m' := (evalExpr_load_of_ok hv).symm.trans h
      refine ⟨name, m₁, rfl, ?_⟩
      rw [load_eq] at hload
      cases hfind : host.find m₁.world.cache name with
      | nowhere x =>
        rw [hfind] at hload
        cases hload
      | cached r =>
        rw [hfind] at hload
        cases hload
        exact .inl ⟨r, rfl, rfl, rfl⟩
      | file path =>
        rw [hfind] at hload
        dsimp only at hload
        cases hread : (host.read path).2 with
        | error x =>
          rw [hread] at hload
          cases hload
        | ok p =>
          have hloading : parts.Loading host own e m path p m₁ := ⟨⟨name, hv, hfind⟩, hread⟩
          cases htext : parts.text host path p m₁ with
          | error x m₂ => cases (hloading.run_of_error htext rounds).symm.trans h
          | ok w m₂ =>
            cases (hloading.run_of_ok htext rounds).symm.trans h
            exact .inr ⟨path, p, w, m₂, rfl, hloading, htext, rfl, rfl⟩
    | _ => cases (EStateM.bind_of_ok hv).symm.trans h

end Evaluator

/-- A module that is found is in the cache, under the path of the file. -/
lemma Host.exists_of_find_eq_cached {host : Host} {cache : ModuleCache} {name : String}
    {r : Ref .module} (h : host.find cache name = .cached r) :
    ∃ file, Path.ofModuleName host.files.cwd name = .ok file ∧ cache.find? file.text = some r := by
  unfold Host.find at h
  cases hp : Path.ofModuleName host.files.cwd name with
  | error c => simp [hp] at h
  | ok file =>
    cases hfile : host.files.isFile file with
    | false => simp [hp, hfile] at h
    | true =>
      cases hc : cache.find? file.text with
      | none => simp [hp, hfile, hc] at h
      | some r' =>
        obtain rfl : r' = r := by simpa [hp, hfile, hc] using h
        exact ⟨file, rfl, hc⟩

/-- Whatever the text comes to, its module is in the cache, for it was from the start on. -/
lemma Evaluator.cached_of_text (host : Host) (rounds depth : Nat) (path : String) (p : Program)
    (m₁ : Machine) :
    ((ofDepth (load host) rounds depth).text host path p m₁).state.world.cache.find? path =
      some ⟨m₁.world.store.modules.size⟩ := by
  have hself := ofDepth_agreesInside host m₁ rounds depth
  have hloads := (hself.program ⟨m₁.world.store.scopes.size⟩ p).loads (m₁.atText host path)
  exact hloads.grows.find? (OrderedMap.find?_insert_self ..)

/-- **What an import answers is a module**, and it is in the cache under the path of its name. -/
theorem Evaluator.module_of_load {host : Host} {rounds depth : Nat} {own : Ref .scope} {e : Expr}
    {m m' : Machine} {v : Value}
    (h : (ofDepth (load host) rounds (depth + 1)).expr own (.load e) m = .ok v m') :
    ∃ (name : String) (m₁ : Machine) (file : Path) (r : Ref .module),
      (ofDepth (load host) rounds depth).expr own e m = .ok (.str name) m₁ ∧
      Path.ofModuleName host.files.cwd name = .ok file ∧ v = .module r ∧
      m'.world.cache.find? file.text = some r := by
  obtain ⟨name, m₁, hname, ⟨r, hfind, rfl, rfl⟩ | ⟨path, p, w, m₂, hfind, _, htext, rfl, rfl⟩⟩ :=
    answer_cases h
  · obtain ⟨file, hfile, hcached⟩ := Host.exists_of_find_eq_cached hfind
    exact ⟨name, _, file, r, hname, hfile, rfl, hcached⟩
  · obtain ⟨file, hfile, _, rfl, _⟩ := Host.exists_of_find_eq_file hfind
    refine ⟨name, _, file, _, hname, hfile, rfl, ?_⟩
    have hcached := cached_of_text host rounds depth file.text p m₁
    rwa [htext] at hcached

/-- A task that brings a module into the cache is an import that evaluates its text, when it has
gone through its name. -/
lemma Alteration.loading {host : Host} {parts : Evaluator} {rounds : Nat} {t : Task} {m : Machine}
    {h : List Query} {σ σ' : Stock} {path : String} {r : Ref .module}
    (halters : Alteration host t m h σ σ')
    (hpasses : ∀ q ∈ h, parts.Passes (fun ps => (ps.deepen (Evaluator.load host) rounds).run t) m
      (t.manner host m) q)
    (hnot : ¬ σ.cache.find? path = some r) (hcached : σ'.cache.find? path = some r) :
    h ≠ [] ∧ ∃ own e p m₁, t = .expr own (.load e) ∧ parts.Loading host own e m path p m₁ ∧
      r = ⟨m₁.world.store.modules.size⟩ := by
  cases halters with
  | function _ _ _ _ => exact absurd hcached hnot
  | @module name path' own e p m₁ ht hh hm hfind hread =>
    have hinsert : ((m₁.atText host path').stock.cache).find? path =
        if path' = path then some ⟨m₁.world.store.modules.size⟩ else m₁.stock.cache.find? path :=
      OrderedMap.find?_insert ..
    rw [hinsert] at hcached
    split at hcached
    · next heq =>
      subst heq
      cases hcached
      subst hh
      have hrun := (hpasses _ List.mem_cons_self).run
      exact ⟨List.cons_ne_nil _ _, own, e, p, m₁, ht, ⟨⟨name, hrun, hfind⟩, hread⟩, rfl⟩
    · exact absurd hcached hnot

namespace Evaluator

/-! ### Texts that are still evaluated -/

variable {host : Host} {rounds depth depth' : Nat} {t t' : Task} {m m' : Machine} {a : Activation}
  {as as' : List Activation} {path : String} {r : Ref .module}

/-- Codes that are activated stay so. -/
lemma Opens.code_mem {parts : Evaluator} (h : parts.Opens host rounds t m as t' m' as') {c : Code}
    (hc : c ∈ as.map Activation.code) : c ∈ as'.map Activation.code := by
  cases h with
  | call _ _ => exact List.mem_cons_of_mem _ hc
  | text _ _ _ _ _ => exact List.mem_cons_of_mem _ hc
  | _ => exact hc

lemma Trail.code_mem (h : Trail host rounds depth t m as depth' t' m' as') {c : Code}
    (hc : c ∈ as.map Activation.code) : c ∈ as'.map Activation.code := by
  induction h with
  | self _ _ _ _ => exact hc
  | declaring _ => exact hc
  | part _ hopens _ ih => exact ih (hopens.code_mem hc)

/-- When an import has brought a module into the cache, what it evaluates is the text of that. -/
lemma Opens.code_of_altered {parts : Evaluator} {h h' : List Query} {σ σ' : Stock} {u : Reaction}
    {a' : Activation} (hopens : parts.Opens host rounds t m (a :: as) t' m' (a' :: as'))
    (hpart : Part host t m h t' m' u) (halters : Alteration host t m h' σ σ') (hh' : h' <:+ h)
    (hpasses : ∀ q ∈ h, parts.Passes (fun ps => (ps.deepen (load host) rounds).run t) m
      (t.manner host m) q)
    (hnot : ¬ σ.cache.find? path = some r) (hcached : σ'.cache.find? path = some r) :
    a'.code = .text r := by
  obtain ⟨hne, own, e, p, m₁, ht, hloading, hr⟩ :=
    halters.loading (fun q hq => hpasses q (hh'.subset hq)) hnot hcached
  have hmixed : t.isMixed = true := by
    rw [ht]
    rfl
  obtain ⟨name, hname, hfind⟩ := hloading.name
  -- only a statement of the text can be a part now
  cases hpart with
  | text ht' _ _ _ =>
    cases hopens with
    | same hplain _ => cases hmixed.symm.trans hplain
    | stmt hs _ => cases ht.symm.trans hs
    | call hplain _ => cases hmixed.symm.trans hplain
    | text ht'' hname'' _ _ _ =>
      cases ht.symm.trans ht''
      obtain ⟨rfl, rfl⟩ := Evaluator.name_unique hname hname''
      rw [hr]
      rfl
  | name _ hnil =>
    subst hnil
    exact absurd (List.suffix_nil.mp hh') hne
  | expr hplain _ => cases hmixed.symm.trans hplain.plain
  | walk hplain _ => cases hmixed.symm.trans hplain
  | call hplain _ _ => cases hmixed.symm.trans hplain
  | parent hs => cases ht.symm.trans hs
  | again hs _ _ _ => cases ht.symm.trans hs
  | member hs _ _ _ => cases ht.symm.trans hs
  | stmt hs _ _ _ _ => cases ht.symm.trans hs

/-- **A module that is in the cache when a task that has been reached has come to its end, and was
not before**, has been brought there by a text that has not failed, or by one that is still
evaluated. -/
theorem Reaches.cached (hreach : Reaches (load host) rounds depth t m depth' t' m')
    (hstands : t.Stands m a as)
    (hok : ¬ Outcome.Fails ((ofDepth (load host) rounds depth').run t' m'))
    (hcached : ((ofDepth (load host) rounds depth').run t' m').state.world.cache.find? path =
      some r) :
    m.world.cache.find? path = some r ∨
      Altered host rounds (fun σ => σ.cache.find? path = some r) depth t m (a :: as) False ∨
      ∃ as', Trail host rounds depth t m (a :: as) depth' t' m' as' ∧
        .text r ∈ as'.map Activation.code := by
  induction hreach generalizing a as with
  | self depth t m =>
    by_cases hm : m.world.cache.find? path = some r
    · exact .inl hm
    · exact .inr (.inl ((exists_altered (fun σ => σ.cache.find? path = some r) depth hstands hm
        hcached).imp hok))
  | @part depth depth' t t₁ t' m m₁ m' heval hreach ih =>
    have hreading := (ofDepth_keeping host rounds depth).reading host rounds t m
    obtain ⟨h, u, hpart, hsince⟩ := hreading.asks heval
    obtain ⟨a₁, as₁, hopens, hstands₁, _⟩ := Part.opens hpart hstands hsince.passes
    rcases ih hstands₁ hok hcached with hm₁ | haltered | ⟨as', htrail, htext⟩
    · -- it was there when the part started
      rcases hsince.traces (fun σ => σ.cache.find? path = some r) hm₁ with
        hm | ⟨q, hq, hbefore, hafter⟩ | ⟨h', σ₁, σ₂, hh', halters, h₁, h₂⟩
      · exact .inl hm
      · have hpass := hsince.passes q hq
        rw [← hpass.run] at hafter
        refine .inr (.inl (.of_part hstands hpass.evaluates fun a' as' hstands' => ?_))
        exact (exists_altered _ depth hstands' hbefore hafter).imp hpass.not_fails
      · have hcode := hopens.code_of_altered hpart halters hh' hsince.passes h₁ h₂
        obtain ⟨a', as', htrail, _⟩ := hreach.exists_trail hstands₁
        refine .inr (.inr ⟨_, .part heval hopens htrail, htrail.code_mem ?_⟩)
        exact List.mem_map.mpr ⟨a₁, List.mem_cons_self, hcode⟩
    · exact .inr (.inl (haltered.of_opens heval hopens))
    · exact .inr (.inr ⟨as', .part heval hopens htrail, htext⟩)

end Evaluator

/-! ### What a turn imports -/

namespace Eval

variable {host : Host} {limits : Limits} {n : Node} {scope : Ref .scope} {m : Machine}
  {path : String} {r : Ref .module}

/-- **An import in a turn.** A trail leads to an import that evaluates the text at the path as this
module, and the program of the text comes to this. -/
inductive Imported (host : Host) (limits : Limits) (n : Node) (scope : Ref .scope) (m : Machine)
    (path : String) (r : Ref .module) : Outcome Value → Prop
  | intro {t₀ : Task} {m₀ m' m₁ : Machine} {a₀ : Activation} {as : List Activation} {depth : Nat}
      {own : Ref .scope} {e : Expr} {p : Program} : Starts host limits n scope m t₀ m₀ a₀ →
    Evaluator.Trail host limits.rounds limits.depth t₀ m₀ [a₀] (depth + 1) (.expr own (.load e)) m'
      as →
    (Evaluator.ofDepth (Evaluator.load host) limits.rounds depth).Loading host own e m' path p m₁ →
    r = ⟨m₁.world.store.modules.size⟩ → Imported host limits n scope m path r
      ((Evaluator.ofDepth (Evaluator.load host) limits.rounds depth).text host path p m₁)

/-- What has come into the cache has been imported. -/
lemma Altered.imported {failure : Prop}
    (h : Altered host limits n scope m (fun σ => σ.cache.find? path = some r) failure) :
    ∃ o, Imported host limits n scope m path r o ∧ ∀ x m', o = .error x m' → failure := by
  obtain ⟨hstarts, hchange⟩ := h
  obtain @⟨depth, t, m₀, _, _, _, _, _, htrail, _, hpasses, halters, hnot, hcached, hfails⟩ :=
    hchange
  obtain ⟨_, own, e, p, m₁, rfl, hloading, hr⟩ := halters.loading hpasses hnot hcached
  refine ⟨_, .intro hstarts htrail hloading hr, fun x m' hx => hfails ?_⟩
  have hrun := hloading.run_of_error hx limits.rounds
  have hkeeps := Evaluator.ofDepth_keeping host limits.rounds (depth + 1) (.expr own (.load e)) m₀
  exact ⟨x, _, hrun, Machine.LeavesSteady.final hkeeps hrun⟩

lemma Altered.imported_ok
    (h : Altered host limits n scope m (fun σ => σ.cache.find? path = some r) False) :
    ∃ w m', Imported host limits n scope m path r (.ok w m') := by
  obtain ⟨o, himported, hfails⟩ := h.imported
  cases o with
  | ok w m' => exact ⟨w, m', himported⟩
  | error x m' => exact (hfails x m' rfl).elim

/-- **What is in the cache in the course of a turn** was there before, or its text has been imported
and has come to its end, or it is still evaluated. -/
theorem Starts.cached {t₀ t : Task} {m₀ m₁ : Machine} {a₀ : Activation} {depth : Nat}
    (hstarts : Starts host limits n scope m t₀ m₀ a₀)
    (hreach : Evaluator.Reaches (Evaluator.load host) limits.rounds limits.depth t₀ m₀ depth t m₁)
    (hok : ¬ Outcome.Fails
      ((Evaluator.ofDepth (Evaluator.load host) limits.rounds depth).run t m₁))
    (hcached : ((Evaluator.ofDepth (Evaluator.load host) limits.rounds depth).run t
      m₁).state.world.cache.find? path = some r) :
    m.world.cache.find? path = some r ∨
      (∃ w m', Imported host limits n scope m path r (.ok w m')) ∨
      ∃ as, Evaluator.Trail host limits.rounds limits.depth t₀ m₀ [a₀] depth t m₁ as ∧
        .text r ∈ as.map Activation.code := by
  rcases hreach.cached hstarts.stands.1 hok hcached with hm₀ | haltered | hopen
  · cases hstarts with
    | expr _ => exact .inl hm₀
    | stmt hs heval =>
      have hparts := Evaluator.ofDepth_keeping host limits.rounds limits.depth
      obtain ⟨_, _, _, hsince⟩ := (hparts.reading_node n scope m.atBottom).asks heval
      rcases altered_of_since hsince (T := fun σ => σ.cache.find? path = some r) hm₀ with
        hm | haltered
      · exact .inl hm
      · exact .inr (.inl haltered.imported_ok)
  · exact .inr (.inl (Altered.intro hstarts haltered).imported_ok)
  · exact .inr (.inr hopen)

/-- A fault with which a trail starts comes to the host, in the world as it is. -/
lemma Starts.evaluate_of_fault {t₀ : Task} {m₀ m₁ : Machine} {a₀ : Activation} {f : Fault}
    (hstarts : Starts host limits n scope m t₀ m₀ a₀) (hidle : m.stack.frames = [])
    (hrun : (Evaluator.ofDepth (Evaluator.load host) limits.rounds limits.depth).run t₀ m₀ =
      .error (.fault f) m₁) :
    ∃ m', evaluate host limits n scope m = .error (.fault f) m' ∧ m'.world = m₁.world := by
  have hwhole : ∃ m₂, wholeNode (.ofDepth (Evaluator.load host) limits.rounds limits.depth) n scope
      m.atBottom = .error (.fault f) m₂ ∧ m₂.world = m₁.world := by
    cases hstarts with
    | @expr e hn =>
      subst hn
      have hnode : node (.ofDepth (Evaluator.load host) limits.rounds limits.depth) scope (.expr e)
        m.atBottom = .error (.fault f) m₁ := hrun
      unfold wholeNode recording takingReturn outsideLoops
      rw [hnode]
      exact ⟨_, rfl, rfl⟩
    | stmt _ heval =>
      obtain ⟨m₂, hm₂, _, _, _, rfl⟩ := heval.cameUp hrun fun _ hq =>
        .recording (.takingReturn (.outsideLoops (hq.node scope n)))
      exact ⟨_, hm₂, rfl⟩
  obtain ⟨m₂, hm₂, hworld⟩ := hwhole
  have heq : evaluate host limits n scope m = _ := evaluateOver_of_idle _ n scope hidle
  rw [heq, hm₂]
  exact ⟨_, rfl, hworld⟩

/-- **If a text fails, so does the turn, and its module is in the cache.** -/
theorem Imported.evaluate_of_fault {f : Fault} {m' : Machine} (hidle : m.stack.frames = [])
    (h : Imported host limits n scope m path r (.error (.fault f) m')) :
    ∃ m'', evaluate host limits n scope m = .error (.fault f) m'' ∧
      m''.world.cache.find? path = some r := by
  generalize ho : (.error (.fault f) m' : Outcome Value) = o at h
  obtain @⟨_, _, _, m₁, _, _, depth, _, _, p, hstarts, htrail, hloading, hr⟩ := h
  have hcached := Evaluator.cached_of_text host limits.rounds depth path p m₁
  rw [← ho, ← hr] at hcached
  obtain ⟨m₂, hm₂, _, _, _, rfl⟩ := htrail.reaches.cameUp (hloading.run_of_error ho.symm _)
  obtain ⟨m'', hm'', hworld⟩ := hstarts.evaluate_of_fault hidle hm₂
  refine ⟨m'', hm'', ?_⟩
  rw [hworld]
  exact hcached

end Eval

/-! ### Over many turns -/

namespace Engine

variable {p q : Engine} {i c : Nat} {path : String} {r : Ref .module}

/-- A turn of a session in which a node is evaluated from this state, and what it leads to: the host
has the node evaluated, or it is the main program of a file. -/
inductive Turns (q : Engine) (i : Nat) (host : Host) (limits : Limits) :
    Node → Ref .scope → Machine → Engine → Prop
  | node (n : Node) (scope : Ref .scope) : Turns q i host limits n scope (q.machine i)
    (q.turn i (Eval.evaluate host limits n scope)).2
  | main {raw text : String} {own : Ref .scope} {m₁ : Machine} {program : Program} :
    host.Opens raw (q.machine i) text own m₁ →
    host.parse text m₁.modulePath = .program program →
    Turns q i host limits (.program program) own (m₁.parsing text)
      (q.turn i (Eval.runFile host limits raw)).2

/-- **A turn brings a module into the cache of its session**: the host has opened it, or it is that
of a main program, or a text has been imported as this module. If the text has failed, so has the
turn. -/
inductive Brings (path : String) (r : Ref .module) (p : Engine) (i : Nat) : Engine → Prop
  | opened {host : Host} {raw : String} : (p.machine i).world.cache.find? path ≠ some r →
    ((Eval.openModule host raw).after (p.machine i)).world.cache.find? path = some r →
    Brings path r p i (p.turn i (Eval.openModule host raw)).2
  | main {host : Host} {limits : Limits} {raw text : String} {own : Ref .scope} {m₁ : Machine} :
    host.Opens raw (p.machine i) text own m₁ →
    (p.machine i).world.cache.find? path ≠ some r → m₁.world.cache.find? path = some r →
    Brings path r p i (p.turn i (Eval.runFile host limits raw)).2
  | imported {host : Host} {limits : Limits} {n : Node} {scope : Ref .scope} {m : Machine}
      {o : Outcome Value} {p' : Engine} : p.Turns i host limits n scope m p' →
    Eval.Imported host limits n scope m path r o →
    (∀ x m', o = .error x m' → ∃ e m'', Eval.evaluate host limits n scope m = .error e m'') →
    Brings path r p i p'

/-- **Where a module comes from** that a task has in its cache, in a turn that evaluates a node. Its
text has been imported in this turn and has come to its end; or the task is part of its text, which
is still evaluated; or it has been brought by a turn before this one; or it has been opened in this
turn, for the main program. -/
inductive Provenance (q : Engine) (i : Nat) (host : Host) (limits : Limits) (n : Node)
    (scope : Ref .scope) (m : Machine) (depth : Nat) (t : Task) (m₁ : Machine) (path : String)
    (r : Ref .module) : Prop
  | ended {w : Value} {m' : Machine} : Eval.Imported host limits n scope m path r (.ok w m') →
    Provenance q i host limits n scope m depth t m₁ path r
  | underway {t₀ : Task} {m₀ : Machine} {a₀ : Activation} {as : List Activation} :
    Eval.Starts host limits n scope m t₀ m₀ a₀ →
    Evaluator.Trail host limits.rounds limits.depth t₀ m₀ [a₀] depth t m₁ as →
    .text r ∈ as.map Activation.code → Provenance q i host limits n scope m depth t m₁ path r
  | earlier {p p' : Engine} {j : Nat} : initial.Leads p → p'.Leads q →
    (p.sessions.get j).cache = (q.sessions.get i).cache → Brings path r p j p' →
    Provenance q i host limits n scope m depth t m₁ path r
  | main : (q.machine i).world.cache.find? path ≠ some r → m.world.cache.find? path = some r →
    Provenance q i host limits n scope m depth t m₁ path r

/-- Sessions have no frames between their turns. -/
lemma Leads.frames_eq_nil (h : initial.Leads q) (i : Nat) : (q.machine i).stack.frames = [] := by
  have law := Machine.sameFrames_hostLaw
  have hidle : q.Idle := by
    induction h with
    | refl =>
      have hinitial : Reachable false initial := .initial
      exact hinitial.idle
    | tail _ hstep ih =>
      cases hstep with
      | newSession verbose limits cache => exact ih.newSession verbose limits cache
      | openModule i host raw => exact ih.turn (law.openModule host raw) i
      | evaluate i host limits n scope => exact ih.turn (law.evaluate host limits n scope) i
      | runFile i host limits raw => exact ih.turn (law.runFile host limits raw) i
  exact List.length_eq_zero_iff.mp (hidle i)

lemma Turns.frames_eq_nil {host : Host} {limits : Limits} {n : Node} {scope : Ref .scope}
    {m : Machine} {q' : Engine} (h : q.Turns i host limits n scope m q')
    (hidle : (q.machine i).stack.frames = []) : m.stack.frames = [] := by
  cases h with
  | node _ _ => exact hidle
  | main hopen _ => exact (Eval.stack_of_opens hopen).symm ▸ hidle

/-- The cache when the node has been evaluated is that of the session after the turn. -/
lemma Turns.cache {host : Host} {limits : Limits} {n : Node} {scope : Ref .scope} {m : Machine}
    {q' : Engine} (h : q.Turns i host limits n scope m q') :
    q'.caches.get (q.sessions.get i).cache =
      ((Eval.evaluate host limits n scope).after m).world.cache := by
  cases h with
  | node _ _ => rw [get_caches_turn, if_pos rfl]
  | main hopen hparse =>
    obtain ⟨err, sources, hafter⟩ := Eval.after_runFile_of_program limits hopen hparse
    rw [get_caches_turn, if_pos rfl, hafter]

/-- What is new in a cache after a turn has come into the cache of its session. -/
lemma find?_of_turn {α : Type} {x : Eval α} (hnot : (p.caches.get c).find? path ≠ some r)
    (hcached : ((p.turn i x).2.caches.get c).find? path = some r) :
    (p.sessions.get i).cache = c ∧ (p.machine i).world.cache.find? path ≠ some r ∧
      (x.after (p.machine i)).world.cache.find? path = some r := by
  rw [get_caches_turn] at hcached
  split at hcached
  · next heq =>
    subst heq
    exact ⟨rfl, hnot, hcached⟩
  · exact absurd hcached hnot

/-- **What is new in a cache has been brought there.** -/
lemma Step.brings (h : p.Step q) (hidle : ∀ i, (p.machine i).stack.frames = [])
    (hnot : (p.caches.get c).find? path ≠ some r) (hcached : (q.caches.get c).find? path = some r) :
    ∃ i, (p.sessions.get i).cache = c ∧ Brings path r p i q := by
  cases h with
  | newSession verbose limits cache =>
    have hnew : ((if cache.isNone then p.caches.push .empty else p.caches).get c).find? path =
      some r := hcached
    split at hnew
    · rw [Arena.get_push] at hnew
      split at hnew
      · cases hnew
      · exact absurd hnew hnot
    · exact absurd hnew hnot
  | openModule i host raw =>
    obtain ⟨hc, hbefore, hafter⟩ := find?_of_turn hnot hcached
    exact ⟨i, hc, .opened hbefore hafter⟩
  | evaluate i host limits n scope =>
    obtain ⟨hc, hbefore, hafter⟩ := find?_of_turn hnot hcached
    obtain ⟨o, himported, hfails⟩ := (Eval.exists_altered
      (fun σ => σ.cache.find? path = some r) (hidle i) hbefore hafter).imported
    exact ⟨i, hc, .imported (.node n scope) himported hfails⟩
  | runFile i host limits raw =>
    obtain ⟨hc, hbefore, hafter⟩ := find?_of_turn hnot hcached
    have hran := Eval.runFile_ran host limits raw (p.machine i)
    generalize (Eval.runFile host limits raw).after (p.machine i) = m' at hran hafter
    refine ⟨i, hc, ?_⟩
    cases hran with
    | unread _ _ => exact absurd hafter hbefore
    | rejected hopen _ _ => exact .main hopen hbefore hafter
    | @evaluated text own m₁ program _ _ hopen hparse =>
      by_cases hm₁ : m₁.world.cache.find? path = some r
      · exact .main hopen hbefore hm₁
      · have hturn : p.Turns i host limits (.program program) own (m₁.parsing text) _ :=
          .main hopen hparse
        obtain ⟨o, himported, hfails⟩ := (Eval.exists_altered
          (fun σ => σ.cache.find? path = some r) (hturn.frames_eq_nil (hidle i)) hm₁
          hafter).imported
        exact .imported hturn himported hfails

/-- **What is in a cache has been brought there by some turn**, in a session with that cache. -/
theorem Leads.brought (h : initial.Leads q) (hcached : (q.caches.get c).find? path = some r) :
    ∃ p j p', initial.Leads p ∧ p'.Leads q ∧ (p.sessions.get j).cache = c ∧
      Brings path r p j p' := by
  induction h with
  | refl =>
    rw [show Engine.initial.caches.get c = default from Arena.get_of_size_le _ (Nat.zero_le c)]
      at hcached
    cases hcached
  | @tail q' q hlead hstep ih =>
    by_cases hbefore : (q'.caches.get c).find? path = some r
    · obtain ⟨p, j, p', hp, hp', hc, hbrings⟩ := ih hbefore
      exact ⟨p, j, p', hp, hp'.tail hstep, hc, hbrings⟩
    · obtain ⟨j, hc, hbrings⟩ := hstep.brings (Leads.frames_eq_nil hlead) hbefore hcached
      exact ⟨q', j, q, hlead, .refl, hc, hbrings⟩

end Engine

/-- An import of a name whose path is in the cache is answered from there. -/
lemma Evaluator.load_of_cached {host : Host} {name : String} {file : Path} {r : Ref .module}
    {m : Machine} (parts : Evaluator) (hfile : Path.ofModuleName host.files.cwd name = .ok file)
    (hisFile : host.files.isFile file = true) (hcached : m.world.cache.find? file.text = some r) :
    load host parts name m = .ok (.module r) m := by
  rw [load_eq, Host.find_of_isFile hfile hisFile, hcached]

/-- **Imports hand out modules that have failed, but not in the turn in which they fail.** The
answer of an import is the module in the cache under the path of its name. If that was brought there
in the same turn, its text has come to its end or is still evaluated; else it was brought by another
turn, and if its text failed then, so did that turn. Whenever a text fails, its module stays in the
cache for good, and imports whose path is in the cache are answered from there. -/
theorem Engine.imports_hand_out_whatever_is_cached {q q' : Engine} (hq : Engine.initial.Leads q)
    {i : Nat} {host : Host} {limits : Limits} {n : Node} {scope : Ref .scope} {m : Machine}
    (hturn : q.Turns i host limits n scope m q') :
    (∀ (t₀ : Task) (m₀ m₁ m₂ : Machine) (a₀ : Activation) (depth : Nat) (own : Ref .scope)
      (e : Expr) (v : Value), Eval.Starts host limits n scope m t₀ m₀ a₀ →
      Evaluator.Reaches (Evaluator.load host) limits.rounds limits.depth t₀ m₀ (depth + 1)
        (.expr own (.load e)) m₁ →
      (Evaluator.ofDepth (Evaluator.load host) limits.rounds (depth + 1)).expr own (.load e) m₁ =
        .ok v m₂ →
      ∃ (name : String) (m₃ : Machine) (file : Path) (r : Ref .module),
        (Evaluator.ofDepth (Evaluator.load host) limits.rounds depth).expr own e m₁ =
          .ok (.str name) m₃ ∧
        Path.ofModuleName host.files.cwd name = .ok file ∧ v = .module r ∧
        m₂.world.cache.find? file.text = some r ∧
        q.Provenance i host limits n scope m (depth + 1) (.expr own (.load e)) m₁ file.text r) ∧
    (∀ (path : String) (r : Ref .module) (f : Fault) (m' : Machine),
      Eval.Imported host limits n scope m path r (.error (.fault f) m') →
      (∃ m'', Eval.evaluate host limits n scope m = .error (.fault f) m'') ∧
        ∀ p, q'.Leads p → (p.caches.get (q.sessions.get i).cache).find? path = some r) ∧
    ∀ (parts : Evaluator) (name : String) (file : Path) (r : Ref .module) (m₁ : Machine),
      Path.ofModuleName host.files.cwd name = .ok file → host.files.isFile file = true →
      m₁.world.cache.find? file.text = some r →
      Evaluator.load host parts name m₁ = .ok (.module r) m₁ := by
  refine ⟨?_, ?_, fun parts name file r m₁ => Evaluator.load_of_cached parts⟩
  · intro t₀ m₀ m₁ m₂ a₀ depth own e v hstarts hreach hanswer
    obtain ⟨name, m₃, file, r, hname, hfile, rfl, hcached⟩ := Evaluator.module_of_load hanswer
    refine ⟨name, m₃, file, r, hname, hfile, rfl, hcached, ?_⟩
    have hrun : (Evaluator.ofDepth (Evaluator.load host) limits.rounds (depth + 1)).run
        (.expr own (.load e)) m₁ = .ok (.module r) m₂ := hanswer
    have hok : ¬ Outcome.Fails ((Evaluator.ofDepth (Evaluator.load host) limits.rounds
        (depth + 1)).run (.expr own (.load e)) m₁) := by
      rintro ⟨x, m', herror, _⟩
      cases hrun.symm.trans herror
    rcases hstarts.cached hreach hok (by rw [hrun]; exact hcached) with
      hm | ⟨w, m', himported⟩ | ⟨as, htrail, htext⟩
    · by_cases hbefore : (q.machine i).world.cache.find? file.text = some r
      · obtain ⟨p, j, p', hp, hp', hc, hbrings⟩ := hq.brought hbefore
        exact .earlier hp hp' hc hbrings
      · exact .main hbefore hm
    · exact .ended himported
    · exact .underway hstarts htrail htext
  · intro path r f m' himported
    have hidle := hturn.frames_eq_nil (hq.frames_eq_nil i)
    obtain ⟨m'', hends, hcached⟩ := himported.evaluate_of_fault hidle
    refine ⟨⟨m'', hends⟩, fun p hp => (hp.grows _).find? ?_⟩
    rw [hturn.cache, EStateM.after_of_error hends]
    exact hcached

section FailedLib

/-- The text of `lib.wei`: it declares `x`, fails on line 2, and does not come to its exports. -/
private def brokenProgram : Program :=
  ⟨[.mk 1 (.declare "x" (some (.literal (.int 1))) false),
    .mk 2 (.eval (.binary .add (.name "x") (.literal (.str "s")))), .mk 3 (.exports ["x"])]⟩

/-- The host where `lib.wei` is the only file. -/
private def brokenHost : Host :=
  ⟨(FileTree.empty ⟨["W"]⟩).write "lib.wei" (.file "?".toUTF8), fun _ _ => .program brokenProgram,
    Text.line?⟩

/-- The first session has opened a module. -/
private def beforeLib : Engine :=
  ((Engine.initial.newSession false .standard none).turn 0 (Eval.openModule brokenHost "")).2

/-- The name of the import of `lib`. -/
private def nameOfLib : Expr := .literal (.str "lib")

/-- The import of `lib`. -/
private def importOfLib : Eval Value :=
  Eval.evaluate brokenHost ⟨20, 20⟩ (.expr (.load nameOfLib)) ⟨0⟩

/-- It has been imported once. -/
private def afterLib : Engine := (beforeLib.turn 0 importOfLib).2

/-- The fault with which an evaluation has ended. -/
private def faultOf : Outcome Value → Option Fault
  | .error (.fault f) _ => some f
  | _ => none

private lemma exists_of_faultOf {o : Outcome Value} (h : (faultOf o).isSome = true) :
    ∃ f m, o = .error (.fault f) m := by
  cases o with
  | ok w m => cases h
  | error x m =>
    cases x with
    | fault f => exact ⟨f, m, rfl⟩
    | _ => cases h

/-- The text of `lib.wei` fails in the first turn. Its module stays in the cache, and the import in
the second turn is answered with it. -/
theorem Engine.lib_stays_cached_when_it_has_failed :
    (∃ f m', importOfLib (beforeLib.machine 0) = .error (.fault f) m') ∧
    (∀ p, afterLib.Leads p → (p.caches.get 0).find? "/W/lib.wei" = some ⟨1⟩) ∧
    ∃ m₁, (Evaluator.ofDepth (Evaluator.load brokenHost) 20 20).expr ⟨0⟩
        (.load nameOfLib) m₁ = .ok (.module ⟨1⟩) m₁ ∧
      afterLib.Provenance 0 brokenHost ⟨20, 20⟩ (.expr (.load nameOfLib)) ⟨0⟩
        (afterLib.machine 0) 20 (.expr ⟨0⟩ (.load nameOfLib)) m₁ "/W/lib.wei" ⟨1⟩ := by
  have hbefore : Engine.initial.Leads beforeLib :=
    .tail (.single (.newSession false .standard none)) (.openModule 0 brokenHost "")
  have hafter : Engine.initial.Leads afterLib :=
    hbefore.tail (.evaluate 0 brokenHost ⟨20, 20⟩ _ ⟨0⟩)
  have hfirst : beforeLib.Turns 0 brokenHost ⟨20, 20⟩ (.expr (.load nameOfLib)) ⟨0⟩
    (beforeLib.machine 0) afterLib := .node _ _
  have hsecond : afterLib.Turns 0 brokenHost ⟨20, 20⟩ (.expr (.load nameOfLib)) ⟨0⟩
    (afterLib.machine 0) (afterLib.turn 0 importOfLib).2 := .node _ _
  obtain ⟨_, hfailed, hcached⟩ := Engine.imports_hand_out_whatever_is_cached hbefore hfirst
  obtain ⟨hanswered, _, _⟩ := Engine.imports_hand_out_whatever_is_cached hafter hsecond
  have hcache : (beforeLib.sessions.get 0).cache = 0 ∧ (afterLib.sessions.get 0).cache = 0 := by
    decide +kernel
  have hsize : (beforeLib.machine 0).world.store.modules.size = 1 := by decide +kernel
  have hfault : (faultOf ((Evaluator.ofDepth (Evaluator.load brokenHost) 20 19).text brokenHost
      "/W/lib.wei" brokenProgram (beforeLib.machine 0).atBottom)).isSome = true := by decide +kernel
  have hfind : brokenHost.find (beforeLib.machine 0).world.cache "lib" = .file "/W/lib.wei" := by
    rfl
  have hread : (brokenHost.read "/W/lib.wei").2 = .ok brokenProgram := by rfl
  have hname (m : Machine) : (Evaluator.ofDepth (Evaluator.load brokenHost) 20 19).expr ⟨0⟩
    nameOfLib m = .ok (.str "lib") m := rfl
  have hfile : Path.ofModuleName brokenHost.files.cwd "lib" = .ok ⟨["W", "lib.wei"]⟩ := by rfl
  have hisFile : brokenHost.files.isFile ⟨["W", "lib.wei"]⟩ = true := by decide +kernel
  have htext : Path.text ⟨["W", "lib.wei"]⟩ = "/W/lib.wei" := by decide +kernel
  have hworld : (afterLib.machine 0).world.cache =
    afterLib.caches.get (afterLib.sessions.get 0).cache := rfl
  have himport : importOfLib (beforeLib.machine 0) = Eval.evaluate brokenHost ⟨20, 20⟩
    (.expr (.load nameOfLib)) ⟨0⟩ (beforeLib.machine 0) := rfl
  rw [hcache.2] at hworld
  rw [hcache.1] at hfailed
  rw [himport]
  -- from here on it does not matter what the states are
  generalize beforeLib.machine 0 = m, afterLib.machine 0 = m' at *
  have hloading : (Evaluator.ofDepth (Evaluator.load brokenHost) 20 19).Loading brokenHost ⟨0⟩
    nameOfLib m.atBottom "/W/lib.wei" brokenProgram m.atBottom :=
      ⟨⟨"lib", hname m.atBottom, hfind⟩, hread⟩
  have himported : Eval.Imported brokenHost ⟨20, 20⟩ (.expr (.load nameOfLib)) ⟨0⟩ m
      "/W/lib.wei" ⟨1⟩ ((Evaluator.ofDepth (Evaluator.load brokenHost) 20 19).text brokenHost
        "/W/lib.wei" brokenProgram m.atBottom) :=
    .intro (.expr rfl) (.self ..) hloading (congrArg Ref.mk hsize.symm)
  generalize (Evaluator.ofDepth (Evaluator.load brokenHost) 20 19).text brokenHost "/W/lib.wei"
    brokenProgram m.atBottom = o at hfault himported
  obtain ⟨f, _, rfl⟩ := exists_of_faultOf hfault
  obtain ⟨hends, hstays⟩ := hfailed _ _ _ _ himported
  have hanswer : (Evaluator.ofDepth (Evaluator.load brokenHost) 20 20).expr ⟨0⟩
      (.load nameOfLib) m'.atBottom = .ok (.module ⟨1⟩) m'.atBottom := by
    refine (EStateM.bind_of_ok (hname m'.atBottom)).trans (hcached _ _ _ _ _ hfile hisFile ?_)
    rw [htext]
    exact (congrArg (OrderedMap.find? · "/W/lib.wei") hworld).trans (hstays _ .refl)
  obtain ⟨_, _, _, _, hname', hfile', hr, _, hprovenance⟩ :=
    hanswered _ _ _ _ _ 19 _ _ _ (.expr rfl) (.self ..) hanswer
  obtain ⟨rfl, rfl⟩ := Evaluator.name_unique (hname m'.atBottom) hname'
  cases hfile.symm.trans hfile'
  cases hr
  exact ⟨⟨f, hends⟩, hstays, m'.atBottom, hanswer, htext ▸ hprovenance⟩

/-- **A text that has failed is handed out as a module.** Its import fails in the first turn. In the
second the module is answered; nothing has been evaluated or parsed for that, and it has no exports.
-/
theorem Engine.failed_lib_answers_as_loaded :
    (beforeLib.turn 0 importOfLib).1.result.toOption = none ∧
    (afterLib.sessions.get 0).report.fault.map Fault.message =
      some "unsupported operand type for +: 'int' and 'str'" ∧
    (afterLib.turn 0 importOfLib).1.result.toOption = some (.module ⟨1⟩) ∧
    (afterLib.turn 0 importOfLib).1.parsed = [] ∧
    ((afterLib.turn 0 importOfLib).2.store.module ⟨1⟩).path = "/W/lib.wei" ∧
    ((afterLib.turn 0 importOfLib).2.store.module ⟨1⟩).exports = [] := by
  decide +kernel

end FailedLib

end Wei
