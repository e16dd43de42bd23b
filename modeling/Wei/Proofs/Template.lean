import Mathlib.Data.List.Basic
import Mathlib.Tactic.Lemma
import Wei.TextMethod

/-!
Formatting reads templates. A template is spelled by its pieces: a hole is an empty pair of braces,
a brace is spelled twice and any other character once. No spelling begins another one, so a text is
spelled in one way at most; and where it is not, reading stops at a brace that stands alone, behind
pieces that are again the only ones. In particular formatting undoes escaping, which doubles the
braces of a text.
-/

namespace Wei.Text

/-! ### Spelling -/

/-- Braces are spelled twice. -/
def escapePoint (p : Point) : Text := if p = .char '\x7b' ∨ p = .char '\x7d' then [p, p] else [p]

/-- A text with its braces doubled. -/
def escape (t : Text) : Text := t.flatMap escapePoint

/-- How a piece of a template is spelled. -/
def Piece.spelling : Piece → Text
  | .point p => escapePoint p
  | .hole => [.char '\x7b', .char '\x7d']

/-- How a template is spelled. -/
def spelling (pieces : List Piece) : Text := pieces.flatMap Piece.spelling

/-- The brace in front of `rest` stands alone: it opens no pair and is not doubled. -/
def Lone (brace : Char) (rest : Text) : Prop :=
  brace = '\x7b' ∧ rest.head? ≠ some (.char '\x7b') ∧ rest.head? ≠ some (.char '\x7d') ∨
    brace = '\x7d' ∧ rest.head? ≠ some (.char '\x7d')

variable {p q : Piece} {ps qs : List Piece} {brace : Char} {cs cs' rest rest' : Text}

lemma spelling_cons (p : Piece) (ps : List Piece) :
    spelling (p :: ps) = p.spelling ++ spelling ps := List.flatMap_cons

lemma spelling_append (ps qs : List Piece) :
    spelling (ps ++ qs) = spelling ps ++ spelling qs := List.flatMap_append

lemma spelling_map_point (t : Text) : spelling (t.map .point) = escape t :=
  List.flatMap_map ..

lemma Piece.spelling_of_plain {c : Point} (hopen : c ≠ .char '\x7b') (hclose : c ≠ .char '\x7d') :
    (Piece.point c).spelling = [c] := by
  simp [spelling, escapePoint, hopen, hclose]

/-- The four forms of pieces. -/
lemma Piece.forms (p : Piece) :
    p = .hole ∨ p = .point (.char '\x7b') ∨ p = .point (.char '\x7d') ∨
      ∃ c, c ≠ .char '\x7b' ∧ c ≠ .char '\x7d' ∧ p = .point c := by
  cases p with
  | hole => exact .inl rfl
  | point c =>
    by_cases hopen : c = .char '\x7b'
    · exact .inr (.inl (congrArg _ hopen))
    · by_cases hclose : c = .char '\x7d'
      · exact .inr (.inr (.inl (congrArg _ hclose)))
      · exact .inr (.inr (.inr ⟨c, hopen, hclose, rfl⟩))

/-- **No spelling begins another one.** -/
lemma Piece.spelling_append_inj (h : p.spelling ++ cs = q.spelling ++ cs') : p = q ∧ cs = cs' := by
  rcases p.forms with rfl | rfl | rfl | ⟨c, hopen, hclose, rfl⟩ <;>
    rcases q.forms with rfl | rfl | rfl | ⟨d, hopen', hclose', rfl⟩ <;>
    simp_all [spelling, escapePoint, eq_comm]

/-- Here no piece can be read: nothing is left, or a brace stands alone. -/
inductive Halts : Text → Prop
  | done : Halts []
  | lone {brace : Char} {rest : Text} : Lone brace rest → Halts (.char brace :: rest)

lemma Halts.ne_spelling_append (h : Halts rest) (p : Piece) (cs : Text) :
    rest ≠ p.spelling ++ cs := by
  cases h with
  | done => rcases p.forms with rfl | rfl | rfl | ⟨c, hopen, hclose, rfl⟩ <;>
      simp [Piece.spelling, escapePoint, *]
  | lone h =>
    intro heq
    rcases p.forms with rfl | rfl | rfl | ⟨c, hopen, hclose, rfl⟩ <;>
      rcases h with ⟨rfl, h⟩ | ⟨rfl, h⟩ <;>
      simp_all [Piece.spelling, escapePoint, eq_comm]

/-- **A text is read in one way only**, up to where no more can be read. -/
lemma spelling_append_inj (hrest : Halts rest) (hrest' : Halts rest')
    (h : spelling ps ++ rest = spelling qs ++ rest') : ps = qs ∧ rest = rest' := by
  induction ps generalizing qs with
  | nil =>
    cases qs with
    | nil => exact ⟨rfl, h⟩
    | cons q qs =>
      rw [spelling_cons, List.append_assoc] at h
      exact absurd h (hrest.ne_spelling_append q _)
  | cons p ps ih =>
    rw [spelling_cons, List.append_assoc] at h
    cases qs with
    | nil => exact absurd h.symm (hrest'.ne_spelling_append p _)
    | cons q qs =>
      rw [spelling_cons, List.append_assoc] at h
      obtain ⟨rfl, htail⟩ := Piece.spelling_append_inj h
      obtain ⟨rfl, rfl⟩ := ih htail
      exact ⟨rfl, rfl⟩

/-- Every text can be read up to where no more can be read. -/
lemma exists_spelling (cs : Text) : ∃ ps rest, cs = spelling ps ++ rest ∧ Halts rest := by
  have step (p : Piece) {cs : Text} (h : ∃ ps rest, cs = spelling ps ++ rest ∧ Halts rest) :
      ∃ ps rest, p.spelling ++ cs = spelling ps ++ rest ∧ Halts rest := by
    obtain ⟨ps, rest, rfl, hrest⟩ := h
    exact ⟨p :: ps, rest, by rw [spelling_cons, List.append_assoc], hrest⟩
  have hhead {cs : Text} {c : Point} (h : ∀ rest, cs ≠ c :: rest) : cs.head? ≠ some c := by
    rw [Ne, List.head?_eq_some_iff]
    rintro ⟨rest, heq⟩
    exact h rest heq
  induction cs using template?.induct with
  | case1 => exact ⟨[], [], rfl, .done⟩
  | case2 rest ih => exact step (.point (.char '\x7b')) ih
  | case3 rest ih => exact step .hole ih
  | case4 rest hopen hclose =>
    exact ⟨[], _, rfl, .lone (.inl ⟨rfl, hhead hopen, hhead hclose⟩)⟩
  | case5 rest ih => exact step (.point (.char '\x7d')) ih
  | case6 rest hclose => exact ⟨[], _, rfl, .lone (.inr ⟨rfl, hhead hclose⟩)⟩
  | case7 c rest _ _ hopen _ hclose ih =>
    have hread := step (.point c) ih
    rwa [Piece.spelling_of_plain hopen hclose] at hread

lemma spelling_injective : Function.Injective spelling := by
  intro ps qs h
  have h : spelling ps ++ [] = spelling qs ++ [] := congrArg (· ++ []) h
  exact (spelling_append_inj .done .done h).1

/-- **What no pieces spell has one brace that stands alone**, behind what pieces spell. -/
lemma not_spelled_iff : (¬ ∃ ps, cs = spelling ps) ↔ ∃! place : List Piece × Char × Text,
    cs = spelling place.1 ++ .char place.2.1 :: place.2.2 ∧ Lone place.2.1 place.2.2 := by
  constructor
  · intro hnot
    obtain ⟨ps, rest, rfl, hrest⟩ := exists_spelling cs
    cases hrest with
    | done => exact absurd ⟨ps, List.append_nil _⟩ hnot
    | @lone brace rest hlone =>
      refine ⟨(ps, brace, rest), ⟨rfl, hlone⟩, ?_⟩
      rintro ⟨ps', brace', rest'⟩ ⟨heq, hlone'⟩
      obtain ⟨rfl, htail⟩ := spelling_append_inj (.lone hlone) (.lone hlone') heq
      obtain ⟨⟨⟩, ⟨⟩⟩ := List.cons.inj htail
      rfl
  · rintro ⟨⟨ps, brace, rest⟩, ⟨rfl, hlone⟩, -⟩ ⟨qs, h⟩
    have h : spelling ps ++ .char brace :: rest = spelling qs ++ [] :=
      h.trans (List.append_nil _).symm
    cases (spelling_append_inj (.lone hlone) .done h).2

/-! ### Reading what is spelled -/

lemma template?_spelling_append (p : Piece) (cs : Text) :
    template? (p.spelling ++ cs) = (template? cs).map (p :: ·) := by
  rcases p.forms with rfl | rfl | rfl | ⟨c, hopen, hclose, rfl⟩
  · rfl
  · rfl
  · rfl
  · rw [Piece.spelling_of_plain hopen hclose]
    show template? (c :: cs) = _
    rw [template?] <;> simp_all

lemma template?_of_lone (h : Lone brace rest) : template? (.char brace :: rest) = .error brace := by
  rcases h with ⟨rfl, hopen, hclose⟩ | ⟨rfl, hclose⟩
  · rw [template?]
    · rintro _ rfl
      exact hopen rfl
    · rintro _ rfl
      exact hclose rfl
  · rw [template?]
    rintro _ rfl
    exact hclose rfl

/-- **Reading takes the pieces that are spelled in front.** -/
lemma template?_spelling (ps : List Piece) (cs : Text) :
    template? (spelling ps ++ cs) = (template? cs).map (ps ++ ·) := by
  induction ps with
  | nil => cases h : template? cs <;> simp [spelling, h, Except.map]
  | cons p ps ih =>
    rw [spelling_cons, List.append_assoc, template?_spelling_append, ih]
    cases template? cs <;> rfl

lemma template?_of_spelling (h : cs = spelling ps) : template? cs = .ok ps := by
  have hread := template?_spelling ps []
  rwa [List.append_nil, ← h, template?, Except.map, List.append_nil] at hread

lemma template?_of_lone_behind (h : cs = spelling ps ++ .char brace :: rest)
    (hlone : Lone brace rest) : template? cs = .error brace := by
  rw [h, template?_spelling, template?_of_lone hlone]
  rfl

/-! ### Filling -/

/-- What a piece stands for, with so many holes before it. -/
def Piece.meaning (texts : List Text) (before : Nat) : Piece → Text
  | .point p => [p]
  | .hole => texts.getD before []

/-- What the pieces stand for one after the other, where the hole with `k` holes before it stands
for text `k`. -/
def meaning (pieces : List Piece) (texts : List Text) : Text :=
  (pieces.mapIdx fun i p => p.meaning texts ((pieces.take i).count .hole)).flatten

lemma fill_eq_meaning (pieces : List Piece) (texts : List Text) :
    fill pieces texts = meaning pieces texts := by
  unfold meaning
  induction pieces generalizing texts with
  | nil => rfl
  | cons p pieces ih =>
    rw [List.mapIdx_cons, List.flatten_cons]
    cases p with
    | point c =>
      rw [fill, ih]
      simp [Piece.meaning]
    | hole =>
      cases texts with
      | nil =>
        rw [fill, ih]
        simp [Piece.meaning]
      | cons text texts =>
        rw [fill, ih]
        simp [Piece.meaning]

lemma fill_points (cs : Text) (pieces : List Piece) (texts : List Text) :
    fill (cs.map .point ++ pieces) texts = cs ++ fill pieces texts := by
  induction cs with
  | nil => rfl
  | cons c cs ih => exact congrArg (c :: ·) ih

/-- The pieces of a template that has a hole and a text for each of `tails`, after a first text. -/
def alternating (first : Text) (tails : List Text) : List Piece :=
  first.map .point ++ tails.flatMap fun tail => .hole :: tail.map .point

lemma spelling_alternating (first : Text) (tails : List Text) :
    spelling (alternating first tails) =
      escape first ++ tails.flatMap fun tail =>
        .char '\x7b' :: .char '\x7d' :: escape tail := by
  rw [alternating, spelling_append, spelling_map_point]
  congr 1
  induction tails with
  | nil => rfl
  | cons tail tails ih =>
    rw [List.flatMap_cons, List.flatMap_cons, spelling_append, ih, spelling_cons,
      spelling_map_point]
    rfl

lemma holes_alternating (first : Text) (tails : List Text) :
    holes (alternating first tails) = tails.length := by
  have hpoints (cs : Text) : (cs.map Piece.point).count .hole = 0 :=
    List.count_eq_zero.mpr (by simp)
  rw [holes, alternating, List.count_append, hpoints, Nat.zero_add]
  induction tails with
  | nil => rfl
  | cons tail tails ih =>
    rw [List.flatMap_cons, List.count_append, List.count_cons_self, hpoints, ih, List.length_cons]
    omega

lemma fill_alternating (first : Text) (entries : List (Text × Text)) :
    fill (alternating first (entries.map (·.2))) (entries.map (·.1)) =
      first ++ entries.flatMap fun e => e.1 ++ e.2 := by
  rw [alternating, fill_points]
  congr 1
  induction entries with
  | nil => rfl
  | cons e entries ih =>
    rw [List.map_cons, List.map_cons, List.flatMap_cons, List.flatMap_cons, List.cons_append, fill,
      fill_points, ih, List.append_assoc]

end Wei.Text

namespace Wei.TextMethod

open Text

variable {s : Store} {this : Text} {args : List Value} {ps : List Piece} {brace : Char}
  {rest : Text}

lemma call_format_of_ok {v : Value} (h : filled s this args = .ok v) :
    call .format this args s = .ok v s := by
  refine call_of_value ?_
  rw [answer, h]
  rfl

lemma call_format_of_error {f : Fault} (h : filled s this args = .error f) :
    call .format this args s = .error f s := by
  refine call_of_error ?_
  rw [answer, h]
  rfl

/-- What formatting comes to when the text is spelled by pieces. -/
lemma filled_of_spelling (h : this = spelling ps) : filled s this args =
    if ps.count .hole = args.length then
      .ok (.str (meaning ps (args.map s.render)))
    else .error (.wrongArity args.length (ps.count .hole)) := by
  unfold filled
  rw [template?_of_spelling h]
  simp only [holes, fill_eq_meaning, eq_comm]

lemma filled_of_lone (h : this = spelling ps ++ .char brace :: rest) (hlone : Lone brace rest) :
    filled s this args = .error (.loneBrace brace) := by
  unfold filled
  rw [template?_of_lone_behind h hlone]

/-- **Formatting undoes escaping.** -/
lemma call_format_escaped (s : Store) (first : Text) (entries : List (Value × Text)) :
    call .format (escape first ++ entries.flatMap fun e => ofString "\x7b\x7d" ++ escape e.2)
      (entries.map (·.1)) s =
        .ok (.str (first ++ entries.flatMap fun e => s.render e.1 ++ e.2)) s := by
  let texts := entries.map fun e => (s.render e.1, e.2)
  have hspelled : (escape first ++ entries.flatMap fun e => ofString "\x7b\x7d" ++ escape e.2) =
      spelling (alternating first (texts.map (·.2))) := by
    rw [spelling_alternating]
    simp [texts, List.flatMap_map, ofString]
  have hholes : (alternating first (texts.map (·.2))).count .hole =
      (entries.map (·.1)).length := by
    rw [← holes, holes_alternating]
    simp [texts]
  have hargs : (entries.map (·.1)).map s.render = texts.map (·.1) := by
    simp [texts]
  have htext : meaning (alternating first (texts.map (·.2))) ((entries.map (·.1)).map s.render) =
      first ++ entries.flatMap fun e => s.render e.1 ++ e.2 := by
    rw [← fill_eq_meaning, hargs, fill_alternating]
    simp [texts, List.flatMap_map]
  have hfilled := (filled_of_spelling (s := s) hspelled).trans (if_pos hholes)
  rw [htext] at hfilled
  exact call_format_of_ok hfilled

/-- **Formatting accepts exactly the templates with as many holes as there are arguments, and undoes
escaping.**

* A text is spelled by pieces in one way at most. It is formatted exactly if it is spelled by pieces
  with one hole for each argument, and the answer is then what these stand for: hole by hole the
  texts of the arguments.
* A text that no pieces spell has one brace at which reading stops, behind pieces. Whatever the
  arguments are, the answer is a `ValueError` for this brace.
* A text that is spelled by another number of holes is an `ArityError`.
* Texts with their braces doubled, and a hole between each and the next, format to the texts as they
  are, with the texts of the arguments between them. -/
theorem format_reads_templates (s : Store) (this : Text) (args : List Value) :
    Function.Injective spelling ∧
    ((∃ v, call .format this args s = .ok v s) ↔
      ∃ ps, this = spelling ps ∧ ps.count .hole = args.length) ∧
    (∀ ps, this = spelling ps ∧ ps.count .hole = args.length →
      call .format this args s =
        .ok (.str (meaning ps (args.map s.render))) s) ∧
    ((¬ ∃ ps, this = spelling ps) ↔ ∃! place : List Piece × Char × Text,
      this = spelling place.1 ++ .char place.2.1 :: place.2.2 ∧ Lone place.2.1 place.2.2) ∧
    (∀ ps brace rest, this = spelling ps ++ .char brace :: rest ∧ Lone brace rest →
      ∀ args, call .format this args s = .error (.loneBrace brace) s ∧
        (Fault.loneBrace brace).kind.title = "ValueError") ∧
    (∀ ps, this = spelling ps ∧ ps.count .hole ≠ args.length →
      call .format this args s = .error (.wrongArity args.length (ps.count .hole)) s ∧
        (Fault.wrongArity args.length (ps.count .hole)).kind.title = "ArityError") ∧
    ∀ (first : Text) (entries : List (Value × Text)),
      call .format (escape first ++ entries.flatMap fun e => ofString "\x7b\x7d" ++ escape e.2)
        (entries.map (·.1)) s =
          .ok (.str (first ++ entries.flatMap fun e => s.render e.1 ++ e.2)) s := by
  have hfills (ps : List Piece) (h : this = spelling ps ∧ ps.count .hole = args.length) :
      call .format this args s =
        .ok (.str (meaning ps (args.map s.render))) s :=
    call_format_of_ok ((filled_of_spelling h.1).trans (if_pos h.2))
  have hrefuses (ps : List Piece) (h : this = spelling ps ∧ ps.count .hole ≠ args.length) :
      call .format this args s = .error (.wrongArity args.length (ps.count .hole)) s :=
    call_format_of_error ((filled_of_spelling h.1).trans (if_neg h.2))
  have hlone (ps : List Piece) (brace : Char) (rest : Text)
      (h : this = spelling ps ++ .char brace :: rest ∧ Lone brace rest) (args : List Value) :
      call .format this args s = .error (.loneBrace brace) s :=
    call_format_of_error (filled_of_lone h.1 h.2)
  refine ⟨spelling_injective, ⟨?_, fun ⟨ps, h⟩ => ⟨_, hfills ps h⟩⟩, hfills, not_spelled_iff,
    fun ps brace rest h args => ⟨hlone ps brace rest h args, rfl⟩,
    fun ps h => ⟨hrefuses ps h, rfl⟩, call_format_escaped s⟩
  rintro ⟨v, hv⟩
  obtain ⟨ps, rest, hthis, hrest⟩ := exists_spelling this
  cases hrest with
  | lone h => cases (hlone ps _ _ ⟨hthis, h⟩ args).symm.trans hv
  | done =>
    rw [List.append_nil] at hthis
    refine ⟨ps, hthis, ?_⟩
    by_contra hcount
    cases (hrefuses ps ⟨hthis, hcount⟩).symm.trans hv

end Wei.TextMethod
