import Wei.Proofs.Reachable

/-!
A tree that conforms to the grammar never makes the host fail, whatever it does to values of
whatever types, as long as its strings are written in characters. The host can fail only while it
loads a module: over the path, over the file or over its text.

A string that has a lone surrogate is another matter. The host has no UTF-8 form for it, and fails
when the string is to be the key of a dictionary, is printed, or names a module.
-/

namespace Wei

namespace Eval

/-- What is bounded in depth does not end in having gone too deep. -/
lemma recording_boundingDepth_ne_tooDeep {α : Type} (x : Eval α) (m m' : Machine) :
    recording (boundingDepth x) m ≠ .error .tooDeep m' := by
  intro h
  unfold recording boundingDepth at h
  cases hx : x m with
  | ok a m₁ => simp [hx] at h
  | error e m₁ => cases e <;> simp [hx] at h

/-- Going too deep is a fault by the time the host is answered. -/
lemma evaluateOver_ne_tooDeep (parts : Evaluator) (n : Node) (scope : Ref .scope)
    (m m' : Machine) : evaluateOver parts n scope m ≠ .error .tooDeep m' := by
  intro h
  change atBottom _ { m with report := m.report.reset } = _ at h
  unfold atBottom withFrame at h
  split at h
  · split at h
    · cases h
    · next e m₁ hx =>
      cases h
      exact recording_boundingDepth_ne_tooDeep _ _ _ hx
  · exact recording_boundingDepth_ne_tooDeep _ _ _ h

end Eval

section Texts

variable [A : Alphabet]

/-- The loader answers a value or ends in a fault. It never makes the host fail, except over a text
that has no UTF-8 form where there may be such. -/
def Loader.Dependable (load : Loader) : Prop := load.Sound (.grammar fun _ => False)

namespace Engine

/-- A turn in which the host did not fail: it ended in an answer that is not dangling afterwards or
in a fault, unless a loop did not come to an end. -/
def Answered (t : Turn Value × Engine) : Prop :=
  (∃ v, t.1.result = .ok v ∧ v.Live t.2.store.census) ∨ (∃ f, t.1.result = .error (.fault f)) ∨
    t.1.result = .error .unfinished

variable {p : Engine} {i : Nat}

/-- What is left of a turn of the host if its evaluation does only what a session may do. -/
lemma Sound.answered_or_crash {R : Regime} (hp : p.Sound R.strict) {load : Loader}
    (hload : load.Sound R) (limits : Limits) {n : Node} (hn : R.Admits n.conforms)
    {scope : Ref .scope} (hscope : scope.Live p.store.census) :
    let t := p.turn i (Eval.evaluateBy load limits n scope)
    Answered t ∨ ∃ c, R.crash c ∧ t.1.result = .error (.crash c) := by
  have hdoes := Eval.evaluateBy_does (m := p.machine i) hload limits hscope hn (hp.machine i)
  have hexits := Eval.evaluateBy_confined load limits n scope (p.machine i)
  have hdeep := Eval.evaluateOver_ne_tooDeep (.ofDepth load limits.rounds limits.depth) n scope
    (p.machine i)
  unfold Engine.turn
  change ∀ m', Eval.evaluateBy load limits n scope (p.machine i) ≠ .error .tooDeep m' at hdeep
  generalize Eval.evaluateBy load limits n scope (p.machine i) = r at hdoes hexits hdeep ⊢
  cases r with
  | ok v m => exact .inl (.inl ⟨v, rfl, hdoes.2⟩)
  | error e m =>
    cases e with
    | fault f => exact .inl (.inr (.inl ⟨f, rfl⟩))
    | returning v => cases hexits
    | breaking => cases hexits
    | continuing => cases hexits
    | crash c => exact .inr ⟨c, hdoes.2, rfl⟩
    | tooDeep => exact absurd rfl (hdeep m)
    | unfinished => exact .inl (.inr (.inr rfl))

/-- **A tree that conforms to the grammar never makes the host fail, except over a text that has no
UTF-8 form**, after whatever hosts have done before with such trees. Every evaluation that comes to
an end is answered with a value or a fault, as long as the loader answers. Where modules come from
the files of a host, reading these is all else that can fail. Where the strings of all trees are
over an alphabet without surrogates, the host does not fail over a text either. -/
theorem Reachable.conforming_never_fails (hp : p.Reachable true) (i : Nat) (limits : Limits)
    {n : Node} (hn : n.conforms = true) {scope : Ref .scope} (hscope : scope.Live p.store.census) :
    (∀ load : Loader, load.Dependable →
      let t := p.turn i (Eval.evaluateBy load limits n scope)
      Answered t ∨ ¬ A.Plain ∧ t.1.result = .error (.crash .unencodable)) ∧
    ∀ host : Host, host.Admitted true →
      let t := p.turn i (Eval.evaluate host limits n scope)
      Answered t ∨ ¬ A.Plain ∧ t.1.result = .error (.crash .unencodable) ∨
        ∃ c, host.Fails c ∧ t.1.result = .error (.crash c) := by
  have hsound : p.Sound true := hp.soundOver fun h => nomatch h
  constructor
  · intro load hload
    obtain h | ⟨c, hc | ⟨hA, rfl⟩, hcrash⟩ :=
      hsound.answered_or_crash (i := i) hload limits (fun _ => hn) hscope
    · exact .inl h
    · cases hc
    · exact .inr ⟨hA, hcrash⟩
  · intro host hhost
    have hload : Loader.Sound (.grammar host.Fails) (Evaluator.load host) :=
      Evaluator.load_sound hhost fun _ h => .inl h
    obtain h | ⟨c, hc | ⟨hA, rfl⟩, hcrash⟩ :=
      hsound.answered_or_crash (i := i) hload limits (fun _ => hn) hscope
    · exact .inl h
    · exact .inr (.inr ⟨c, hc, hcrash⟩)
    · exact .inr (.inl ⟨hA, hcrash⟩)

end Engine

end Texts

namespace Engine

/-- The files are none. -/
private def emptyHost : Host := ⟨.empty ⟨[]⟩, fun _ _ => .syntaxError "", Text.line?⟩

/-- A session has opened a module. -/
private def opened : Engine :=
  ((Engine.initial.newSession false .standard none).turn 0 (Eval.openModule emptyHost "")).2

private lemma opened_reachable [Alphabet] : opened.Reachable true :=
  .openModule 0 emptyHost "" (.newSession false .standard none .initial)

/-- A method is called with too many arguments, out of a module that has just been opened, by a
tree that is written in characters. -/
theorem Reachable.wrong_call_never_fails :
    let f : FunctionLiteral := .mk (some "f") ["x"] [.mk 2 (.ret (some (.name "x")))]
    let call : Expr := .call (.attr (.call (.name "A") []) "f") [.literal (.str "y"), .list []]
    let cls : Stmt := .mk 1 (.classDef "A" none [.mk 2 (.method f false)])
    let n : Node := .program ⟨[cls, .mk 3 (.eval call)]⟩
    let nothing : Loader := fun _ _ => pure .null
    let _ : Alphabet := .chars
    (opened.Reachable true ∧ n.conforms = true ∧ (⟨0⟩ : Ref .scope).Live opened.store.census ∧
      nothing.Dependable ∧ emptyHost.Admitted true) ∧
    Answered (opened.turn 0 (Eval.evaluateBy nothing .standard n ⟨0⟩)) ∧
    let t := opened.turn 0 (Eval.evaluate emptyHost .standard n ⟨0⟩)
    Answered t ∨ ∃ c, emptyHost.Fails c ∧ t.1.result = .error (.crash c) := by
  intro f call cls n nothing A
  have hn : n.conforms = true := rfl
  have hscope : (⟨0⟩ : Ref .scope).Live opened.store.census := Nat.zero_lt_one
  have hload : nothing.Dependable := fun _ _ _ _ => .pure Value.live_null
  have hhost : emptyHost.Admitted true := nofun
  obtain ⟨hany, hfiles⟩ := opened_reachable.conforming_never_fails 0 .standard hn hscope
  have hplain : ¬ ¬ A.Plain := not_not_intro Alphabet.plain_chars
  refine ⟨⟨opened_reachable, hn, hscope, hload, hhost⟩, ?_, ?_⟩
  · exact (hany nothing hload).resolve_right fun h => hplain h.1
  · exact (hfiles emptyHost hhost).imp_right fun h => h.resolve_left fun h => hplain h.1

/-- A dictionary is to have a key that is a lone surrogate. Whatever the loader, the host fails. -/
theorem Reachable.surrogate_key_fails :
    let n : Node := .expr (.dict [(.literal (.str [.surrogate 0]), .literal (.int 1))])
    opened.Reachable true ∧ n.conforms = true ∧ (⟨0⟩ : Ref .scope).Live opened.store.census ∧
    ∀ load : Loader, ∃ m, Eval.evaluateBy load .standard n ⟨0⟩ (opened.machine 0) =
      .error (.crash .unencodable) m := by
  refine ⟨opened_reachable, rfl, Nat.zero_lt_one, fun load => ⟨_, rfl⟩⟩

end Engine

end Wei
