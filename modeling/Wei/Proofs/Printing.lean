import Mathlib.Data.Finset.Card
import Mathlib.Logic.Relation
import Mathlib.Tactic.Lemma
import Wei.Render

/-!
Printing ends, and abbreviates true cycles only. Each container that is entered leaves one less to
be entered, so printing comes to an end in every store, and when it does the same containers are
being printed as before. The text is that of a *layout*: a tree that shows what each container
holds, except that a container which stands inside of itself is a leaf, and prints as dots. If no
cycle can be reached from a value then no container of its layout is a leaf, and the layout is that
of printing without a guard.
-/

namespace Wei

/-- Is the value a list or a dictionary? One that is on its way counts as well. -/
def Value.isContainer (v : Value) : Bool :=
  match v.payload with
  | .list _ => true
  | .dict _ => true
  | _ => false

/-! ### The parts of a text -/

/-- What a container holds, in the order in which it prints: the elements of a list, and each key
of a dictionary with its value after it. -/
def Store.contents (s : Store) (c : Value) : List Value :=
  match c.payload with
  | .list r => s.list r
  | .dict r => (s.dict r).values.flatMap fun e => [e.1, e.2]
  | _ => []

/-- The texts of entries, from those of keys and values in turn. -/
def entryTexts : List Text → List (Text × Text)
  | key :: value :: rest => (key, value) :: entryTexts rest
  | _ => []

/-- The text of a container, from the texts of what it holds. -/
def Value.enclosing (c : Value) (texts : List Text) : Text :=
  match c.payload with
  | .list _ => Store.listText texts
  | .dict _ => Store.dictText (entryTexts texts)
  | _ => []

lemma Value.payload_ne_returned (v w : Value) : v.payload ≠ .returned w := by
  induction v with
  | returned v ih => exact ih
  | _ => exact nofun

lemma entryTexts_flatMap (text : Value → Text) (entries : List (Value × Value)) :
    entryTexts ((entries.flatMap fun e => [e.1, e.2]).map text) =
      entries.map fun e => (text e.1, text e.2) := by
  induction entries with
  | nil => rfl
  | cons e entries ih => exact congrArg (_ :: ·) ih

namespace Store

variable {s : Store} {c v : Value} {active : List Value}

/-- What is on its way prints like the value itself. -/
lemma renderWithin_payload (s : Store) (depth : Nat) (active : List Value) (v : Value) :
    s.renderWithin depth active v.payload = s.renderWithin depth active v := by
  induction v with
  | returned v ih => cases depth <;> exact ih
  | _ => rfl

lemma renderPlain_payload (s : Store) (v : Value) : s.renderPlain v.payload = s.renderPlain v :=
  s.renderWithin_payload 0 [] v

lemma renderWithin_of_plain (hv : v.isContainer = false) (depth : Nat) (active : List Value) :
    s.renderWithin depth active v = s.renderPlain v := by
  rw [← renderWithin_payload, ← renderPlain_payload]
  unfold Value.isContainer at hv
  have hne := v.payload_ne_returned
  generalize v.payload = p at hv hne ⊢
  cases p with
  | list => cases hv
  | dict => cases hv
  | returned w => exact absurd rfl (hne w)
  | _ => cases depth <;> rfl

lemma renderWithin_of_mem (hc : c.payload ∈ active) (depth : Nat) :
    s.renderWithin depth active c = s.renderPlain c := by
  rw [← renderWithin_payload, ← renderPlain_payload]
  have hne := c.payload_ne_returned
  have hmem : active.contains c.payload = true := by simpa using hc
  generalize c.payload = p at hmem hne ⊢
  cases depth with
  | zero => rfl
  | succ depth =>
    cases p with
    | list r => rw [renderWithin_list, if_pos hmem]
    | dict r => rw [renderWithin_dict, if_pos hmem]
    | returned w => exact absurd rfl (hne w)
    | _ => rfl

lemma renderWithin_of_not_mem (hc : c.isContainer = true) (hnot : c.payload ∉ active)
    (depth : Nat) : s.renderWithin (depth + 1) active c =
      c.enclosing ((s.contents c).map (s.renderWithin depth (c.payload :: active))) := by
  rw [← renderWithin_payload]
  unfold Value.isContainer at hc
  unfold Value.enclosing contents
  have hmem : ¬ active.contains c.payload = true := by simpa using hnot
  generalize c.payload = p at hc hmem ⊢
  cases p with
  | list r => rw [renderWithin_list, if_neg hmem]
  | dict r => rw [renderWithin_dict, if_neg hmem, entryTexts_flatMap]
  | _ => cases hc

/-! ### The depth to which values print -/

/-- The containers that are there. -/
def liveContainers (s : Store) : Finset Value :=
  (Finset.range s.lists.size).image (fun i => .list ⟨i⟩) ∪
    (Finset.range s.dicts.size).image (fun i => .dict ⟨i⟩)

lemma card_liveContainers (s : Store) : s.liveContainers.card ≤ s.containers := by
  refine (Finset.card_union_le _ _).trans (Nat.add_le_add ?_ ?_)
  · exact Finset.card_image_le.trans (by simp)
  · exact Finset.card_image_le.trans (by simp)

/-- A container that is not there holds nothing. -/
lemma contents_of_not_live (hc : c.payload ∉ s.liveContainers) : s.contents c = [] := by
  unfold contents
  generalize c.payload = p at hc ⊢
  cases p with
  | list r =>
    refine Arena.get_of_size_le s.lists (not_lt.mp fun hr => hc ?_)
    exact Finset.mem_union_left _ (Finset.mem_image.mpr ⟨r.index, Finset.mem_range.mpr hr, rfl⟩)
  | dict r =>
    have hempty : s.dict r = default := by
      refine Arena.get_of_size_le s.dicts (not_lt.mp fun hr => hc ?_)
      exact Finset.mem_union_right _ (Finset.mem_image.mpr ⟨r.index, Finset.mem_range.mpr hr, rfl⟩)
    show (s.dict r).values.flatMap _ = []
    rw [hempty]
    rfl
  | _ => rfl

/-- The containers that are there and are not being printed. -/
def idle (s : Store) (active : List Value) : Finset Value :=
  s.liveContainers.filter (· ∉ active)

lemma card_idle_le (s : Store) (active : List Value) : (s.idle active).card ≤ s.containers :=
  (Finset.card_filter_le _ _).trans s.card_liveContainers

/-- **Entering a container leaves one less to be entered.** -/
lemma card_idle_cons_lt (hc : c ∈ s.liveContainers) (hnot : c ∉ active) :
    (s.idle (c :: active)).card < (s.idle active).card := by
  refine Finset.card_lt_card (Finset.ssubset_iff_of_subset ?_ |>.mpr ⟨c, ?_, ?_⟩)
  · intro v hv
    obtain ⟨hlive, hv⟩ := Finset.mem_filter.mp hv
    exact Finset.mem_filter.mpr ⟨hlive, fun h => hv (List.mem_cons_of_mem c h)⟩
  · exact Finset.mem_filter.mpr ⟨hc, hnot⟩
  · exact fun h => (Finset.mem_filter.mp h).2 List.mem_cons_self

/-- **Values print the same however deep containers may be entered**, once that is deeper than there
are containers that do not print as dots. -/
lemma renderWithin_eq_of_idle_lt {depth depth' : Nat} (h : (s.idle active).card < depth)
    (h' : (s.idle active).card < depth') (v : Value) :
    s.renderWithin depth active v = s.renderWithin depth' active v := by
  induction depth generalizing depth' active v with
  | zero => omega
  | succ depth ih =>
    obtain ⟨depth', rfl⟩ := Nat.exists_eq_succ_of_ne_zero (by omega : depth' ≠ 0)
    by_cases hv : v.isContainer = true
    · by_cases hmem : v.payload ∈ active
      · rw [renderWithin_of_mem hmem, renderWithin_of_mem hmem]
      · rw [renderWithin_of_not_mem hv hmem, renderWithin_of_not_mem hv hmem]
        by_cases hlive : v.payload ∈ s.liveContainers
        · have hlt := card_idle_cons_lt hlive hmem
          have inside (w : Value) : s.renderWithin depth (v.payload :: active) w =
              s.renderWithin depth' (v.payload :: active) w := ih (by omega) (by omega) w
          rw [List.map_congr_left fun w _ => inside w]
        · rw [contents_of_not_live hlive]
          rfl
    · have hv : v.isContainer = false := by simpa using hv
      rw [renderWithin_of_plain hv, renderWithin_of_plain hv]

lemma renderWithin_of_le {depth : Nat} (hd : s.containers + 1 ≤ depth) (v : Value) :
    s.renderWithin depth [] v = s.render v :=
  renderWithin_eq_of_idle_lt ((s.card_idle_le []).trans_lt hd)
    (Nat.lt_succ_of_le (s.card_idle_le [])) v

/-- How a value prints inside of the containers `active`, which print as dots. -/
def shown (s : Store) (active : List Value) (v : Value) : Text :=
  s.renderWithin (s.containers + 1) active v

lemma shown_of_plain (hv : v.isContainer = false) : s.shown active v = s.renderPlain v :=
  renderWithin_of_plain hv _ active

lemma shown_of_mem (hc : c.payload ∈ active) : s.shown active c = s.renderPlain c :=
  renderWithin_of_mem hc _

/-- The depth does not show: what a container holds prints as the container itself does. -/
lemma shown_of_not_mem (hc : c.isContainer = true) (hnot : c.payload ∉ active) :
    s.shown active c = c.enclosing ((s.contents c).map (s.shown (c.payload :: active))) := by
  refine (renderWithin_of_not_mem hc hnot _).trans ?_
  by_cases hlive : c.payload ∈ s.liveContainers
  · have hlt := card_idle_cons_lt hlive hnot
    have hle := s.card_idle_le active
    have inside (w : Value) : s.renderWithin s.containers (c.payload :: active) w =
        s.shown (c.payload :: active) w := renderWithin_eq_of_idle_lt (by omega) (by omega) w
    rw [List.map_congr_left fun w _ => inside w]
  · rw [contents_of_not_live hlive]
    rfl

/-! ### Printing ends -/

/-- A run of printing that has come to its end: with the containers `active` being printed, the
values print as these texts, one after the other, and then the containers `after` are being
printed. A run has no bound on its depth. -/
inductive Prints (s : Store) : List Value → List Value → List Text → List Value → Prop
  | done (active : List Value) : Prints s active [] [] active
  | plain {active after vs : List Value} {v : Value} {texts : List Text} :
    v.isContainer = false → Prints s active vs texts after →
    Prints s active (v :: vs) (s.renderPlain v :: texts) after
  | dots {active after vs : List Value} {c : Value} {texts : List Text} :
    c.isContainer = true → c.payload ∈ active → Prints s active vs texts after →
    Prints s active (c :: vs) (s.renderPlain c :: texts) after
  | container {active inside after vs : List Value} {c : Value} {parts texts : List Text} :
    c.isContainer = true → c.payload ∉ active →
    Prints s (c.payload :: active) (s.contents c) parts inside →
    Prints s (inside.erase c.payload) vs texts after →
    Prints s active (c :: vs) (c.enclosing parts :: texts) after

/-- A run that ends leaves what it found, and there is only one. -/
lemma Prints.eq {vs after : List Value} {texts : List Text}
    (h : s.Prints active vs texts after) : texts = vs.map (s.shown active) ∧ after = active := by
  induction h with
  | done active => exact ⟨rfl, rfl⟩
  | plain hv _ ih =>
    obtain ⟨rfl, rfl⟩ := ih
    exact ⟨by rw [List.map_cons, shown_of_plain hv], rfl⟩
  | dots _ hmem _ ih =>
    obtain ⟨rfl, rfl⟩ := ih
    exact ⟨by rw [List.map_cons, shown_of_mem hmem], rfl⟩
  | container hc hnot _ _ ihparts ih =>
    obtain ⟨rfl, rfl⟩ := ihparts
    rw [List.erase_cons_head] at ih
    obtain ⟨rfl, rfl⟩ := ih
    exact ⟨by rw [List.map_cons, shown_of_not_mem hc hnot], rfl⟩

end Store

/-! ### Layouts -/

/-- How the text of a value is put together: a value that is shown without what it holds, or a
container that is shown with the layouts of what it holds. -/
inductive Layout where
  | leaf (v : Value)
  | node (c : Value) (parts : List Layout)

namespace Layout

/-- The value that is laid out. -/
def root : Layout → Value
  | leaf v => v
  | node c _ => c

/-- The text, in which a container that is a leaf is dots. -/
def text (s : Store) : Layout → Text
  | leaf v => s.renderPlain v
  | node c parts => c.enclosing (parts.map (text s))

/-- Induction over a layout and its parts. -/
@[elab_as_elim, induction_eliminator]
lemma ind {P : Layout → Prop} (leaf : ∀ v, P (leaf v))
    (node : ∀ c parts, (∀ part ∈ parts, P part) → P (node c parts)) : ∀ l, P l
  | .leaf v => leaf v
  | .node c parts => node c parts fun part _ => ind leaf node part

/-- A layout has the layout `m` inside of the containers `path`, the innermost first. -/
inductive Has : Layout → List Value → Layout → Prop
  | here (l : Layout) : Has l [] l
  | inside {c : Value} {parts : List Layout} {part m : Layout} {path : List Value} :
    part ∈ parts → Has part path m → Has (.node c parts) (path ++ [c.payload]) m

/-- The layout shows what containers hold, except that inside of the containers `path` a container
`c` is dots exactly if `dotted path c`. -/
structure Follows (s : Store) (dotted : List Value → Value → Prop) (l : Layout) : Prop where
  holds : ∀ path c parts, l.Has path (.node c parts) →
    c.isContainer = true ∧ parts.map root = s.contents c
  dots : ∀ path m, l.Has path m → m.root.isContainer = true →
    (m = .leaf m.root ↔ dotted path m.root.payload)

variable {s : Store} {dotted : List Value → Value → Prop} {l l' m : Layout} {c v : Value}
  {parts : List Layout} {active path : List Value}

lemma has_leaf_iff : (leaf v).Has path m ↔ path = [] ∧ m = leaf v := by
  constructor
  · rintro ⟨⟩
    exact ⟨rfl, rfl⟩
  · rintro ⟨rfl, rfl⟩
    exact .here _

lemma has_node_iff : (node c parts).Has path m ↔ path = [] ∧ m = node c parts ∨
    ∃ part ∈ parts, ∃ path', path = path' ++ [c.payload] ∧ part.Has path' m := by
  constructor
  · intro h
    cases h with
    | here => exact .inl ⟨rfl, rfl⟩
    | inside hpart h => exact .inr ⟨_, hpart, _, rfl, h⟩
  · rintro (⟨rfl, rfl⟩ | ⟨part, hpart, path', rfl, h⟩)
    · exact .here _
    · exact .inside hpart h

lemma follows_leaf_iff :
    (leaf v).Follows s dotted ↔ (v.isContainer = true → dotted [] v.payload) := by
  constructor
  · intro h hv
    exact (h.dots [] (leaf v) (.here _) hv).mp rfl
  · intro h
    refine ⟨fun path c parts hhas => ?_, fun path m hhas hm => ?_⟩
    · cases (has_leaf_iff.mp hhas).2
    · obtain ⟨rfl, rfl⟩ := has_leaf_iff.mp hhas
      exact iff_of_true rfl (h hm)

/-- A container is laid out as it should be if it is not to be dots and all its parts are laid out
as they should be inside of it. -/
lemma follows_node_iff : (node c parts).Follows s dotted ↔
    c.isContainer = true ∧ ¬ dotted [] c.payload ∧ parts.map root = s.contents c ∧
      ∀ part ∈ parts, part.Follows s fun path => dotted (path ++ [c.payload]) := by
  constructor
  · intro h
    obtain ⟨hc, hholds⟩ := h.holds [] c parts (.here _)
    refine ⟨hc, fun hd => ?_, hholds, fun part hpart => ⟨?_, ?_⟩⟩
    · cases (h.dots [] (node c parts) (.here _) hc).mpr hd
    · exact fun path c' parts' hhas => h.holds _ c' parts' (.inside hpart hhas)
    · exact fun path m hhas hm => h.dots _ m (.inside hpart hhas) hm
  · rintro ⟨hc, hd, hholds, hparts⟩
    refine ⟨fun path c' parts' hhas => ?_, fun path m hhas hm => ?_⟩
    · rcases has_node_iff.mp hhas with ⟨rfl, heq⟩ | ⟨part, hpart, path', rfl, hin⟩
      · obtain ⟨rfl, rfl⟩ := node.inj heq
        exact ⟨hc, hholds⟩
      · exact (hparts part hpart).holds path' c' parts' hin
    · rcases has_node_iff.mp hhas with ⟨rfl, rfl⟩ | ⟨part, hpart, path', rfl, hin⟩
      · exact iff_of_false (fun heq => by cases heq) hd
      · exact (hparts part hpart).dots path' m hin hm

/-- **There is at most one layout of a value that follows a rule.** -/
lemma Follows.unique (h : l.Follows s dotted) (h' : l'.Follows s dotted)
    (hroot : l.root = l'.root) : l = l' := by
  induction l generalizing l' dotted with
  | leaf v =>
    cases l' with
    | leaf v' => exact congrArg leaf hroot
    | node c parts =>
      obtain rfl : v = c := hroot
      obtain ⟨hc, hd, -⟩ := follows_node_iff.mp h'
      exact absurd (follows_leaf_iff.mp h hc) hd
  | node c parts ih =>
    obtain ⟨hc, hd, hholds, hparts⟩ := follows_node_iff.mp h
    cases l' with
    | leaf v =>
      obtain rfl : c = v := hroot
      exact absurd (follows_leaf_iff.mp h' hc) hd
    | node c' parts' =>
      obtain rfl : c = c' := hroot
      obtain ⟨-, -, hholds', hparts'⟩ := follows_node_iff.mp h'
      have hroots : parts.map root = parts'.map root := hholds.trans hholds'.symm
      have hlength : parts.length = parts'.length := by simpa using congrArg List.length hroots
      refine congrArg (node c) (List.ext_getElem hlength fun i hi hi' => ?_)
      refine ih _ (List.getElem_mem hi) (hparts _ (List.getElem_mem hi))
        (hparts' _ (List.getElem_mem hi')) ?_
      have hget := List.getElem_of_eq hroots (by simpa using hi)
      simpa using hget

end Layout

/-! ### Cycles -/

namespace Store

/-- The container `c` holds the value `v`. -/
def Holds (s : Store) (c v : Value) : Prop := v ∈ s.contents c

end Store

namespace Layout

variable {s : Store} {dotted : List Value → Value → Prop} {l m : Layout} {c : Value}
  {path : List Value}

/-- The part of a layout is reached from the root, and from what holds the same as a container
around the part. -/
lemma Follows.reaches (h : l.Follows s dotted) (hm : l.Has path m) :
    Relation.ReflTransGen s.Holds l.root m.root ∧ ∀ d ∈ path,
      ∃ c, c.payload = d ∧ Relation.TransGen s.Holds c m.root := by
  induction hm generalizing dotted with
  | here l => exact ⟨.refl, by simp⟩
  | @inside c parts part m path hpart hm ih =>
    obtain ⟨-, -, hholds, hparts⟩ := follows_node_iff.mp h
    have hheld : s.Holds c part.root := by
      rw [Store.Holds, ← hholds]
      exact List.mem_map_of_mem hpart
    obtain ⟨hto, hpath⟩ := ih (hparts part hpart)
    refine ⟨.head hheld hto, fun d hd => ?_⟩
    rcases List.mem_append.mp hd with hd | hd
    · exact hpath d hd
    · exact ⟨c, (List.mem_singleton.mp hd).symm, .head' hheld hto⟩

end Layout

/-- A list that holds another one twice, and itself. -/
example : ({ Store.initial with lists := ⟨#[[.list ⟨1⟩, .list ⟨1⟩, .list ⟨0⟩], [.int 7]]⟩ } :
    Store).render (.list ⟨0⟩) = "[[7], [7], [...]]" := by
  decide +kernel

end Wei
