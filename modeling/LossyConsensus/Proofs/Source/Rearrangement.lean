/-
# Sections in either order

The loop over the opening sections takes the parameters before or after the
initial values or the initial rule: they fill different fields, and whether one
of them may follow what has been read is decided by which kinds have been read.
The loop over the channel and the roles sets two different names.  The settings
may then stand in another order; every name has the same value, and rules may
refer to the same names.
-/

import LossyConsensus.Proofs.Protocol.Settings
import LossyConsensus.Proofs.Source.Numbering
import LossyConsensus.Proofs.Source.Outline

namespace LossyConsensus.Source

open LossyConsensus.Protocol LossyConsensus.Text

variable {v : Vocabulary} {processes : Nat} {opening opening' next last : Opening}
  {lines left : List Line} {part part' : Part}

/-! ## Opening sections -/

/-- Set the parameter that a line gives. -/
def setParameter (settings : Settings Float) (line : Line) :
    Except ParseError (Settings Float) := do
  let (name, value) ← readParameter line
  return Settings.set settings name (.real value)

/-- The kinds of sections that open a protocol. -/
def openingKinds : List Section := [.parameters, .initialValues, .initial]

/-- What an opening becomes when it takes in a section. -/
inductive Opening.Takes (v : Vocabulary) (processes : Nat) : Opening → Part → Opening → Prop
  | parameters {opening part settings} (hkind : part.kind = .parameters)
      (hnew : .parameters ∉ opening.seen)
      (hbody : part.body.foldlM setParameter opening.settings = .ok settings) :
      Takes v processes opening part
        { opening with settings, seen := .parameters :: opening.seen }
  | values {opening part values} (hkind : part.kind = .initialValues)
      (hnew : ∀ kind ∈ opening.seen, kind = .parameters)
      (hbody : readValues processes part.line part.body = .ok values) :
      Takes v processes opening part
        { opening with values := some values, seen := .initialValues :: opening.seen }
  | rule {opening part rule} (hkind : part.kind = .initial)
      (hnew : ∀ kind ∈ opening.seen, kind = .parameters)
      (hbody : readInitialRule v part.line part.body = .ok rule) :
      Takes v processes opening part
        { opening with rule := some rule, seen := .initial :: opening.seen }

theorem Opening.takes_of_read (hkind : part.kind ∈ openingKinds)
    (h : opening.read v processes part = .ok next) : opening.Takes v processes part next := by
  rw [Opening.read] at h
  split at h
  · cases h
  · next hseen =>
    have hseen : part.kind ∉ opening.seen := by simpa using hseen
    dsimp only at h
    split at h
    · cases h
    · next hother =>
      have hother : part.kind ≠ .parameters → ∀ kind ∈ opening.seen, kind = .parameters := by
        simpa using hother
      split at h
      · next heq =>
        obtain ⟨settings, hsettings, h⟩ := bind_eq_ok.mp h
        obtain rfl := pure_eq_ok.mp h
        rw [heq] at hseen ⊢
        exact .parameters heq hseen hsettings
      · next heq =>
        obtain ⟨values, hvalues, h⟩ := bind_eq_ok.mp h
        obtain rfl := pure_eq_ok.mp h
        have hnew := hother (by rw [heq]; decide)
        rw [heq]
        exact .values heq hnew hvalues
      · next hfirst hsecond =>
        have heq : part.kind = .initial := by
          rcases List.mem_cons.mp hkind with heq | hkind
          · exact (hfirst heq).elim
          · rcases List.mem_cons.mp hkind with heq | hkind
            · exact (hsecond heq).elim
            · exact List.mem_singleton.mp hkind
        obtain ⟨rule, hrule, h⟩ := bind_eq_ok.mp h
        obtain rfl := pure_eq_ok.mp h
        have hnew := hother (by rw [heq]; decide)
        rw [heq]
        exact .rule heq hnew hrule

theorem Opening.Takes.read_eq_ok (h : opening.Takes v processes part next) :
    opening.read v processes part = .ok next := by
  rw [Opening.read]
  cases h with
  | parameters hkind hnew hbody =>
      rw [hkind, if_neg (by simpa using hnew)]
      exact bind_eq_ok.mpr ⟨_, hbody, rfl⟩
  | values hkind hnew hbody =>
      have hseen : .initialValues ∉ opening.seen := fun h => nomatch hnew _ h
      rw [hkind, if_neg (by simpa using hseen)]
      dsimp only
      rw [if_neg (by simpa using hnew)]
      exact bind_eq_ok.mpr ⟨_, hbody, rfl⟩
  | rule hkind hnew hbody =>
      have hseen : .initial ∉ opening.seen := fun h => nomatch hnew _ h
      rw [hkind, if_neg (by simpa using hseen)]
      dsimp only
      rw [if_neg (by simpa using hnew)]
      exact bind_eq_ok.mpr ⟨_, hbody, rfl⟩

theorem Opening.read_eq_ok_iff (hkind : part.kind ∈ openingKinds) :
    opening.read v processes part = .ok next ↔ opening.Takes v processes part next :=
  ⟨Opening.takes_of_read hkind, Opening.Takes.read_eq_ok⟩

theorem loops_of_readOpening (h : readOpening v processes opening lines = .ok (last, left)) :
    Loops openingKinds (fun opening part => opening.read v processes part) opening lines last
      left := by
  fun_induction readOpening v processes opening lines
  case case1 hnone =>
    cases h
    exact .done hnone
  case case2 hpart ih =>
    obtain ⟨next, hnext, h⟩ := bind_eq_ok.mp h
    exact .step hpart hnext (ih next h)

theorem readOpening_of_loops
    (h : Loops openingKinds (fun opening part => opening.read v processes part) opening lines last
      left) : readOpening v processes opening lines = .ok (last, left) := by
  induction h with
  | done hnone =>
      rw [readOpening]
      split
      · rfl
      · next part hpart =>
        rw [openingKinds, hpart] at hnone
        cases hnone
  | step hpart hstep _ ih =>
      rw [readOpening]
      split
      · next hnone =>
        rw [openingKinds, hnone] at hpart
        cases hpart
      · next part hfound =>
        rw [openingKinds, hfound] at hpart
        cases hpart
        exact bind_eq_ok.mpr ⟨_, hstep, ih⟩

/-- Openings with the same content that have read the same sections, in any
order and on any lines. -/
structure Opening.Alike (opening opening' : Opening) : Prop where
  settings : opening.settings = opening'.settings
  values : opening.values = opening'.values
  rule : opening.rule.map (·.2) = opening'.rule.map (·.2)
  seen : ∀ kind, kind ∈ opening.seen ↔ kind ∈ opening'.seen

theorem Opening.Alike.refl (opening : Opening) : opening.Alike opening :=
  ⟨rfl, rfl, rfl, fun _ => Iff.rfl⟩

theorem Opening.Alike.trans (h : opening.Alike next) (h' : next.Alike last) : opening.Alike last :=
  ⟨h.settings.trans h'.settings, h.values.trans h'.values, h.rule.trans h'.rule,
    fun kind => (h.seen kind).trans (h'.seen kind)⟩

/-- The same section does the same to like openings. -/
theorem Opening.Takes.same (hlike : opening.Alike opening') (hpart : SamePart part part')
    (h : opening.Takes v processes part next) :
    ∃ next', opening'.Takes v processes part' next' ∧ next.Alike next' := by
  have hcons (kind other : Section) :
      other ∈ kind :: opening.seen ↔ other ∈ kind :: opening'.seen := by
    rw [List.mem_cons, List.mem_cons, hlike.seen]
  cases h with
  | parameters hkind hnew hbody =>
      have hbody' := foldlM_renumber (fun _ number other _ =>
        .bind (readParameter_renumber number other) fun _ => .refl _) hpart.body _ _ hbody
      rw [hlike.settings] at hbody'
      exact ⟨_, .parameters (hpart.kind ▸ hkind) (by rwa [← hlike.seen]) hbody', rfl,
        hlike.values, hlike.rule, hcons _⟩
  | values hkind hnew hbody =>
      have hbody' := readValues_renumber _ part'.line hpart.body _ hbody
      have hnew' := fun kind hmem => hnew kind ((hlike.seen kind).mpr hmem)
      exact ⟨_, .values (hpart.kind ▸ hkind) hnew' hbody', hlike.settings, rfl, hlike.rule,
        hcons _⟩
  | @rule rule hkind hnew hbody =>
      obtain ⟨other, hbody'⟩ := readInitialRule_renumber part'.line hpart.body hbody
      have hnew' := fun kind hmem => hnew kind ((hlike.seen kind).mpr hmem)
      exact ⟨_, .rule (hpart.kind ▸ hkind) hnew' hbody', hlike.settings, hlike.values, rfl,
        hcons _⟩

/-- The parameters and the initial values or the initial rule may be taken in
either order. -/
theorem Opening.Takes.swap {second : Part} (hswap : Swappable part.kind second.kind)
    (h : opening.Takes v processes part next) (h' : next.Takes v processes second last) :
    ∃ next' last', opening.Takes v processes second next' ∧ next'.Takes v processes part last' ∧
      last.Alike last' := by
  have hseen (kind other third : Section) :
      third ∈ kind :: other :: opening.seen ↔ third ∈ other :: kind :: opening.seen := by
    simp only [List.mem_cons]
    exact or_left_comm
  cases h with
  | parameters hkind hnew hbody =>
      cases h' with
      | parameters hkind' => exact absurd (hkind ▸ hkind' ▸ hswap) (by decide)
      | values hkind' hnew' hbody' =>
          refine ⟨_, _, .values hkind' ?_ hbody', .parameters hkind ?_ hbody, rfl, rfl, rfl,
            hseen _ _⟩
          · exact fun kind hmem => hnew' kind (List.mem_cons_of_mem _ hmem)
          · simpa using hnew
      | rule hkind' hnew' hbody' =>
          refine ⟨_, _, .rule hkind' ?_ hbody', .parameters hkind ?_ hbody, rfl, rfl, rfl,
            hseen _ _⟩
          · exact fun kind hmem => hnew' kind (List.mem_cons_of_mem _ hmem)
          · simpa using hnew
  | values hkind hnew hbody =>
      cases h' with
      | parameters hkind' hnew' hbody' =>
          refine ⟨_, _, .parameters hkind' ?_ hbody', .values hkind ?_ hbody, rfl, rfl, rfl,
            hseen _ _⟩
          · exact fun hmem => hnew' (List.mem_cons_of_mem _ hmem)
          · exact List.forall_mem_cons.mpr ⟨rfl, hnew⟩
      | values hkind' => exact absurd (hkind ▸ hkind' ▸ hswap) (by decide)
      | rule hkind' => exact absurd (hkind ▸ hkind' ▸ hswap) (by decide)
  | rule hkind hnew hbody =>
      cases h' with
      | parameters hkind' hnew' hbody' =>
          refine ⟨_, _, .parameters hkind' ?_ hbody', .rule hkind ?_ hbody, rfl, rfl, rfl,
            hseen _ _⟩
          · exact fun hmem => hnew' (List.mem_cons_of_mem _ hmem)
          · exact List.forall_mem_cons.mpr ⟨rfl, hnew⟩
      | values hkind' => exact absurd (hkind ▸ hkind' ▸ hswap) (by decide)
      | rule hkind' => exact absurd (hkind ▸ hkind' ▸ hswap) (by decide)

theorem expectsTogether_openingKinds : ExpectsTogether openingKinds := by
  have hall : ∀ pair ∈ swappable, pair.1 ∈ openingKinds → pair.2 ∈ openingKinds := by decide
  exact fun first second hswap => hall _ hswap

theorem commutes_read : Commutes openingKinds (fun opening part => opening.read v processes part)
    Opening.Alike where
  together := expectsTogether_openingKinds
  trans := Opening.Alike.trans
  same := by
    intro opening opening' next part part' hlike hexpected hpart hread
    obtain ⟨next', htakes, hnext⟩ := (Opening.takes_of_read hexpected hread).same hlike hpart
    exact ⟨next', htakes.read_eq_ok, hnext⟩
  swap := by
    intro opening next last first second hexpected hswap hfirst hsecond
    have hexpected' := expectsTogether_openingKinds _ _ hswap hexpected
    obtain ⟨next', last', hnext', hlast', hlike⟩ :=
      (Opening.takes_of_read hexpected hfirst).swap hswap (Opening.takes_of_read hexpected' hsecond)
    exact ⟨next', last', hnext'.read_eq_ok, hlast'.read_eq_ok, hlike⟩

/-- The opening sections may be laid out in any of these ways. -/
theorem readOpening_relaid {lines' : List Line} (hlike : opening.Alike opening')
    (hlines : Relaid lines lines')
    (h : readOpening v processes opening lines = .ok (last, left)) :
    ∃ last' left', readOpening v processes opening' lines' = .ok (last', left') ∧
      last.Alike last' ∧ Relaid left left' := by
  obtain ⟨last', left', hloops, hlast, hleft⟩ :=
    commutes_read.loops (loops_of_readOpening h) hlike hlines
  exact ⟨last', left', readOpening_of_loops hloops, hlast, hleft⟩

theorem Opening.check_eq_ok_iff {number : Nat} : opening.check number lines = .ok () ↔
    (opening.values ≠ none ∨ opening.rule.map (·.2) ≠ none) ∧
      ∀ rule ∈ opening.rule.map (·.2),
        initialFault? ("i" :: Settings.declared opening.settings) rule = none := by
  rw [Opening.check]
  cases hrule : opening.rule with
  | none =>
      cases hvalues : opening.values with
      | none => simp [refuse]
      | some values => simp
  | some rule =>
      obtain ⟨ruleNumber, rule⟩ := rule
      split
      · next hnone => cases hnone
      · next heq =>
        cases heq
        split
        · next fault hfault => simp [refuse, hfault]
        · next hnone => simp [hnone]
      · next heq _ => cases heq

theorem Opening.Alike.check_eq_ok {number : Nat} (h : opening.Alike opening')
    (hcheck : opening.check number lines = .ok ()) (number' : Nat) (lines' : List Line) :
    opening'.check number' lines' = .ok () := by
  rw [Opening.check_eq_ok_iff] at hcheck ⊢
  rwa [← h.values, ← h.rule, ← h.settings]

/-! ## Channel and roles -/

/-- The kinds of sections on the channel and the roles. -/
def channelKinds : List Section := [.channel, .roles]

/-- The name that a section on the channel or the roles sets, and its value. -/
def channelEntry (processes : Nat) (kind : Section) (line : Line) :
    Except ParseError (String × Setting Float) :=
  match kind with
  | .channel => (readChannel processes line).map fun guarantee =>
      (Settings.guaranteeName, .guarantee guarantee)
  | _ => (readLeader processes line).map fun (leader : Nat) =>
      (Settings.leaderName, .process (leader : Int))

variable {settings settings' changed : Settings Float}

theorem exists_entry_of_readChannelPart
    (h : readChannelPart processes settings part = .ok changed) :
    ∃ line name value, part.body = [line] ∧
      channelEntry processes part.kind line = .ok (name, value) ∧
      changed = Settings.set settings name value := by
  rw [readChannelPart] at h
  split at h
  · cases h
  · next line others hbody =>
    dsimp only at h
    rw [hbody]
    split at h
    · next hkind =>
      obtain ⟨guarantee, hread, h⟩ := bind_eq_ok.mp h
      obtain ⟨_, hset, h⟩ := bind_eq_ok.mp h
      obtain rfl := pure_eq_ok.mp hset
      split at h
      · refine ⟨line, _, .guarantee guarantee, rfl, ?_, (pure_eq_ok.mp h).symm⟩
        rw [hkind]
        exact map_eq_ok.mpr ⟨guarantee, hread, rfl⟩
      · cases h
    · next hkind =>
      obtain ⟨leader, hread, h⟩ := bind_eq_ok.mp h
      obtain ⟨_, hset, h⟩ := bind_eq_ok.mp h
      obtain rfl := pure_eq_ok.mp hset
      split at h
      · refine ⟨line, _, .process leader, rfl, ?_, (pure_eq_ok.mp h).symm⟩
        rw [channelEntry.eq_def]
        split
        · next heq => exact (hkind heq).elim
        · exact map_eq_ok.mpr ⟨leader, hread, rfl⟩
      · cases h

theorem readChannelPart_of_entry {line : Line} {name : String} {value : Setting Float}
    (hbody : part.body = [line])
    (hentry : channelEntry processes part.kind line = .ok (name, value)) :
    readChannelPart processes settings part = .ok (Settings.set settings name value) := by
  rw [readChannelPart, hbody]
  rw [channelEntry.eq_def] at hentry
  dsimp only
  generalize part.kind = kind at hentry ⊢
  cases kind
  case channel =>
    obtain ⟨guarantee, hread, heq⟩ := map_eq_ok.mp hentry
    cases heq
    exact bind_eq_ok.mpr ⟨_, hread, rfl⟩
  all_goals
    obtain ⟨leader, hread, heq⟩ := map_eq_ok.mp hentry
    cases heq
    exact bind_eq_ok.mpr ⟨_, hread, rfl⟩

theorem readChannelPart_eq_ok_iff : readChannelPart processes settings part = .ok changed ↔
    ∃ line name value, part.body = [line] ∧
      channelEntry processes part.kind line = .ok (name, value) ∧
      changed = Settings.set settings name value := by
  constructor
  · exact exists_entry_of_readChannelPart
  · rintro ⟨line, name, value, hbody, hentry, rfl⟩
    exact readChannelPart_of_entry hbody hentry

theorem channelEntry_renumber {number other : Nat} {kind : Section} {text : List Char} :
    Preserves (channelEntry processes kind (number, text))
      (channelEntry processes kind (other, text)) := by
  intro entry hentry
  rw [channelEntry.eq_def] at hentry ⊢
  split at hentry
  · obtain ⟨guarantee, hread, rfl⟩ := map_eq_ok.mp hentry
    exact map_eq_ok.mpr ⟨guarantee, readChannel_renumber number other _ hread, rfl⟩
  · obtain ⟨leader, hread, rfl⟩ := map_eq_ok.mp hentry
    exact map_eq_ok.mpr ⟨leader, readLeader_renumber number other _ hread, rfl⟩

/-- The sections on the channel and the roles set two names of their own. -/
theorem name_of_channelEntry {kind : Section} {line : Line} {name : String}
    {value : Setting Float} (h : channelEntry processes kind line = .ok (name, value)) :
    name = if kind = .channel then Settings.guaranteeName else Settings.leaderName := by
  rw [channelEntry.eq_def] at h
  split at h
  · obtain ⟨_, _, heq⟩ := map_eq_ok.mp h
    cases heq
    rfl
  · next hkind =>
    obtain ⟨_, _, heq⟩ := map_eq_ok.mp h
    cases heq
    rw [if_neg hkind]

/-- One turn of the loop over the sections on the channel and the roles. -/
def takeChannelPart (processes : Nat) (state : List Section × Settings Float) (part : Part) :
    Except ParseError (List Section × Settings Float) := do
  if state.1.contains part.kind then
    refuse part.line (.duplicateSection part.kind.word)
  let settings ← readChannelPart processes state.2 part
  return (part.kind :: state.1, settings)

theorem takeChannelPart_eq_ok_iff {state next : List Section × Settings Float} :
    takeChannelPart processes state part = .ok next ↔
      part.kind ∉ state.1 ∧ ∃ line name value, part.body = [line] ∧
        channelEntry processes part.kind line = .ok (name, value) ∧
        next = (part.kind :: state.1, Settings.set state.2 name value) := by
  rw [takeChannelPart]
  by_cases hseen : part.kind ∈ state.1
  · rw [if_pos (by simpa using hseen)]
    constructor
    · intro h
      cases h
    · intro h
      exact absurd hseen h.1
  · rw [if_neg (by simpa using hseen), bind_eq_ok]
    constructor
    · rintro ⟨changed, hread, h⟩
      obtain rfl := pure_eq_ok.mp h
      obtain ⟨line, name, value, hbody, hentry, rfl⟩ := readChannelPart_eq_ok_iff.mp hread
      exact ⟨hseen, line, name, value, hbody, hentry, rfl⟩
    · rintro ⟨_, line, name, value, hbody, hentry, rfl⟩
      exact ⟨_, readChannelPart_eq_ok_iff.mpr ⟨line, name, value, hbody, hentry, rfl⟩, rfl⟩

theorem loops_of_readChannelParts {seen : List Section}
    (h : readChannelParts processes seen settings lines = .ok (changed, left)) :
    ∃ seen', Loops channelKinds (takeChannelPart processes) (seen, settings) lines
      (seen', changed) left := by
  fun_induction readChannelParts processes seen settings lines
  case case1 seen settings lines hnone =>
    cases h
    exact ⟨seen, .done hnone⟩
  case case2 => cases h
  case case3 hpart _ hseen ih =>
    obtain ⟨next, hnext, h⟩ := bind_eq_ok.mp h
    obtain ⟨seen', hloops⟩ := ih next h
    refine ⟨seen', .step hpart ?_ hloops⟩
    rw [takeChannelPart, if_neg hseen]
    exact bind_eq_ok.mpr ⟨next, hnext, rfl⟩

theorem readChannelParts_of_loops {state last : List Section × Settings Float}
    (h : Loops channelKinds (takeChannelPart processes) state lines last left) :
    readChannelParts processes state.1 state.2 lines = .ok (last.2, left) := by
  induction h with
  | done hnone =>
      rw [readChannelParts]
      split
      · rfl
      · next part hpart =>
        rw [channelKinds, hpart] at hnone
        cases hnone
  | @step state next last lines part left hpart hstep _ ih =>
      rw [readChannelParts]
      split
      · next hnone =>
        rw [channelKinds, hnone] at hpart
        cases hpart
      · next part hfound =>
        rw [channelKinds, hfound] at hpart
        cases hpart
        rw [takeChannelPart] at hstep
        split at hstep
        · cases hstep
        · next hseen =>
          obtain ⟨changed, hread, hnext⟩ := bind_eq_ok.mp hstep
          obtain rfl := pure_eq_ok.mp hnext
          rw [if_neg hseen]
          exact bind_eq_ok.mpr ⟨changed, hread, ih⟩

/-- What a protocol is asked about its settings: the value of each name, and
the names that rules may refer to. -/
structure SameSettings (settings settings' : Settings Float) : Prop where
  values : Settings.Same settings settings'
  declared : Settings.declared settings = Settings.declared settings'

/-- Settings that are the same after the same sections have been read. -/
structure ChannelAlike (state state' : List Section × Settings Float) : Prop where
  seen : ∀ kind, kind ∈ state.1 ↔ kind ∈ state'.1
  settings : SameSettings state.2 state'.2

theorem SameSettings.refl (settings : Settings Float) : SameSettings settings settings :=
  ⟨fun _ => rfl, rfl⟩

theorem SameSettings.set (h : SameSettings settings settings') {name : String}
    (hreserved : Settings.isReserved name = true) (value : Setting Float) :
    SameSettings (Settings.set settings name value) (Settings.set settings' name value) := by
  refine ⟨h.values.set name value, ?_⟩
  rw [Settings.declared_set_of_isReserved hreserved, Settings.declared_set_of_isReserved hreserved,
    h.declared]

theorem isReserved_of_channelEntry {kind : Section} {line : Line} {name : String}
    {value : Setting Float} (h : channelEntry processes kind line = .ok (name, value)) :
    Settings.isReserved name = true := by
  rw [name_of_channelEntry h]
  split <;> decide

theorem ChannelAlike.trans {first second third : List Section × Settings Float}
    (h : ChannelAlike first second) (h' : ChannelAlike second third) : ChannelAlike first third :=
  ⟨fun kind => (h.seen kind).trans (h'.seen kind),
    fun name => (h.settings.values name).trans (h'.settings.values name),
    h.settings.declared.trans h'.settings.declared⟩

/-- The same section sets the same in like settings. -/
theorem takeChannelPart_same {state state' next : List Section × Settings Float}
    (hlike : ChannelAlike state state') (hpart : SamePart part part')
    (h : takeChannelPart processes state part = .ok next) :
    ∃ next', takeChannelPart processes state' part' = .ok next' ∧ ChannelAlike next next' := by
  obtain ⟨hseen, ⟨number, text⟩, name, value, hbody, hentry, rfl⟩ := takeChannelPart_eq_ok_iff.mp h
  obtain ⟨other, rest, hbody', hrest⟩ := exists_line_of_texts_eq hpart.body hbody
  obtain rfl := eq_nil_of_texts_eq hrest rfl
  refine ⟨_, takeChannelPart_eq_ok_iff.mpr ⟨?_, _, name, value, hbody', ?_, rfl⟩, ?_, ?_⟩
  · rwa [← hpart.kind, ← hlike.seen]
  · rw [← hpart.kind]
    exact channelEntry_renumber _ hentry
  · intro kind
    rw [List.mem_cons, List.mem_cons, hlike.seen, hpart.kind]
  · exact hlike.settings.set (isReserved_of_channelEntry hentry) value

/-- The channel and the roles may be taken in either order: they set different
names. -/
theorem takeChannelPart_swap {state next last : List Section × Settings Float} {second : Part}
    (hexpected : part.kind ∈ channelKinds) (hswap : Swappable part.kind second.kind)
    (h : takeChannelPart processes state part = .ok next)
    (h' : takeChannelPart processes next second = .ok last) :
    ∃ next' last', takeChannelPart processes state second = .ok next' ∧
      takeChannelPart processes next' part = .ok last' ∧ ChannelAlike last last' := by
  obtain ⟨hnew, line, name, value, hbody, hentry, rfl⟩ := takeChannelPart_eq_ok_iff.mp h
  obtain ⟨hnew', line', name', value', hbody', hentry', rfl⟩ := takeChannelPart_eq_ok_iff.mp h'
  rw [List.mem_cons, not_or] at hnew'
  have hne : name ≠ name' := by
    rw [name_of_channelEntry hentry, name_of_channelEntry hentry']
    have hall : ∀ pair ∈ swappable, pair.1 ∈ channelKinds →
        (if pair.1 = .channel then Settings.guaranteeName else Settings.leaderName) ≠
          if pair.2 = .channel then Settings.guaranteeName else Settings.leaderName := by
      decide
    exact hall _ hswap hexpected
  have hnew'' : part.kind ∉ second.kind :: state.1 := by
    rw [List.mem_cons, not_or]
    exact ⟨fun h => hnew'.1 h.symm, hnew⟩
  refine ⟨_, _,
    takeChannelPart_eq_ok_iff.mpr ⟨hnew'.2, line', name', value', hbody', hentry', rfl⟩,
    takeChannelPart_eq_ok_iff.mpr ⟨hnew'', line, name, value, hbody, hentry, rfl⟩, ?_, ?_, ?_⟩
  · intro kind
    simp only [List.mem_cons]
    exact or_left_comm
  · exact Settings.same_set_set hne _ _ _
  · have hreserved := isReserved_of_channelEntry hentry
    have hreserved' := isReserved_of_channelEntry hentry'
    simp only [Settings.declared_set_of_isReserved hreserved,
      Settings.declared_set_of_isReserved hreserved']

theorem expectsTogether_channelKinds : ExpectsTogether channelKinds := by
  have hall : ∀ pair ∈ swappable, pair.1 ∈ channelKinds → pair.2 ∈ channelKinds := by decide
  exact fun first second hswap => hall _ hswap

theorem commutes_takeChannelPart :
    Commutes channelKinds (takeChannelPart processes) ChannelAlike where
  together := expectsTogether_channelKinds
  trans := ChannelAlike.trans
  same := fun hlike _ hpart => takeChannelPart_same hlike hpart
  swap := takeChannelPart_swap

/-- The channel and the roles may be laid out in any of these ways. -/
theorem readChannelParts_relaid {lines' : List Line} (hlines : Relaid lines lines')
    (h : readChannelParts processes [] settings lines = .ok (changed, left)) :
    ∃ changed' left', readChannelParts processes [] settings lines' = .ok (changed', left') ∧
      SameSettings changed changed' ∧ Relaid left left' := by
  obtain ⟨seen, hloops⟩ := loops_of_readChannelParts h
  obtain ⟨last', left', hloops', hlast, hleft⟩ :=
    commutes_takeChannelPart.loops hloops ⟨fun _ => Iff.rfl, .refl settings⟩ hlines
  exact ⟨last'.2, left', readChannelParts_of_loops hloops', hlast.settings, hleft⟩

end LossyConsensus.Source
