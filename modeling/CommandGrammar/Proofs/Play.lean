import CommandGrammar.Demo
import CommandGrammar.Proofs.Execution
import CommandGrammar.Proofs.Normal

/-!
# `Proofs.Play` — what a player's lines can do

A player types lines one after the other, and each is read and run on behalf of the player as the line before left
it. Whatever is typed, the switches are those that exist, a line that fails changes nothing but what was said, and
only a player with the permission to teleport ever moves.

* `Dispatcher.exists_entry_of_handlerOf` — which handler a line runs, told from the declarations: it is that of an
  entry, and the source passes the requirement of every node on the way to it;
* `Demo.Effect`, `Demo.Does`, `Demo.Acts` — what the steps of a handler can do to a player. Each handler of the grammar
  does no more, since whatever can fail in it comes before whatever changes the player (`Demo.does_bind`);
* `Demo.runLine_cases` — the same for a whole line;
* `Demo.Sound` — what a session keeps: one line by `Sound.effect`, all lines by `Sound.runLines`.
-/

namespace CommandGrammar

/-! ## The handler of a line among the declarations -/

section

variable {S : Type} {t : Tree S} {es : List (Entry S)}

/-- On the way from the root to a path all shorter paths are passed. -/
theorem Tree.Records.above_idOf (h : t.Records es) {q rest : List String} (hp : q ++ rest ∈ [] :: Entry.paths es) :
    t.Above (Entry.idOf es q) (Entry.idOf es (q ++ rest)) := by
  induction rest using List.reverseRecOn with
  | nil =>
    rw [List.append_nil]
    exact .refl
  | append_singleton rest name ih =>
    rw [← List.append_assoc] at hp ⊢
    have hpath : q ++ rest ++ [name] ∈ Entry.paths es := (List.mem_cons.mp hp).resolve_left (by simp)
    obtain ⟨b, hb⟩ := Entry.exists_branch?_of_mem hpath
    obtain ⟨e, _, he, hname, _⟩ := Entry.branch?_eq_some hb
    obtain ⟨habove, hlast⟩ := List.append_inj' hname rfl
    rw [List.singleton_inj.mp hlast] at hpath hb ⊢
    have hchild : t.IsChild (Entry.idOf es (q ++ rest)) (Entry.idOf es (q ++ rest ++ [b.label.name])) :=
      ⟨b, h.mem_children_iff.mpr ⟨hpath, rfl, hb⟩⟩
    exact (ih (habove ▸ h.closed e he)).tail hchild

/-- A handler of a node is brought by an entry of the node's path. -/
theorem Entry.exists_of_handler? {p : List String} {handler : Handler S} (h : handler? es p = some handler) :
    ∃ e ∈ es, e.path = p ∧ e.handler = some handler := by
  obtain ⟨e, he, hhandler⟩ := List.mem_filterMap.mp (List.mem_of_getLast? h)
  obtain ⟨hmem, hpath⟩ := List.mem_filter.mp he
  exact ⟨e, hmem, by simpa using hpath, hhandler⟩

/-- A node that is open to the source has a requirement that the source passes: that of the first entry. -/
theorem Tree.Records.requirement_of_admits (h : t.Records es) {source : S} {p : List String} {first : Entry S}
    (hfirst : Entry.first? es p = some first) (hadmits : t.Admits source (Entry.idOf es p)) :
    first.requirement source := by
  have hp : p ∈ Entry.paths es := by
    by_contra hnone
    rw [Entry.first?_eq_none hnone] at hfirst
    cases hfirst
  obtain ⟨b, hb⟩ := Entry.exists_branch?_of_mem hp
  obtain ⟨e, he, _, _, _, _, hrequirement, _⟩ := Entry.branch?_eq_some hb
  obtain rfl : first = e := Option.some.inj (hfirst.symm.trans he)
  rw [← hrequirement]
  exact hadmits.requirement ((h.branch?_idOf hp).trans hb)

/-- **Which handler a line runs.** It is that of an entry, and the source passes the requirements on the way there. -/
theorem Dispatcher.exists_entry_of_handlerOf {d : Dispatcher S} (hrecords : d.tree.Records es) {s : Scanner}
    {source : S} {handler : Handler S} (h : d.handlerOf (d.parseFrom s source) = .ok handler) :
    ∃ e ∈ es, e.handler = some handler ∧
      ∀ q, q <+: e.path → ∀ first, Entry.first? es q = some first → first.requirement source := by
  have houtcome := d.outcome_parseFrom s source
  have htraces := houtcome.traces (d.tree.stands_start s source)
  have hgranted := (houtcome.granted ⟨rfl, by simp [Trail.start]⟩).1
  obtain ⟨last, _, hhandler, habove⟩ := handlerOf_eq_ok htraces h
  obtain ⟨b, hbranch, hb⟩ := Option.bind_eq_some_iff.mp hhandler
  obtain ⟨p, hp, hid⟩ := hrecords.exists_path hbranch
  rw [← hid, hrecords.branch?_idOf hp] at hbranch
  obtain ⟨_, _, _, _, _, _, _, hbrought⟩ := Entry.branch?_eq_some hbranch
  obtain ⟨e, he, rfl, hentry⟩ := Entry.exists_of_handler? (hbrought.symm.trans hb)
  refine ⟨e, he, hentry, ?_⟩
  rintro q ⟨rest, hrest⟩ first hfirst
  rw [← hrest] at hp hid
  refine hrecords.requirement_of_admits hfirst ?_
  -- Everything above the last node matched, and only open nodes match.
  rcases List.mem_cons.mp (habove _ (hid ▸ hrecords.above_idOf (List.mem_cons_of_mem _ hp))) with hroot | hmem
  · rw [hroot]
    exact d.tree.admits_root source
  · obtain ⟨step, hstep, hnode⟩ := List.mem_map.mp hmem
    rw [← hnode]
    exact hgranted.2 step hstep

/-! ## Lines of a console -/

variable [Feedback S]

theorem Console.isSuccess_runLine (c : Console S) (line : String) (source : S) :
    (c.runLine line source).1.isSuccess = (c.dispatcher.execute (c.parse line source)).1.isOk := by
  unfold Console.runLine
  dsimp only
  cases (c.dispatcher.execute (c.parse line source)).1 <;> rfl

theorem Console.source_runLine (c : Console S) (line : String) (source : S) :
    (c.runLine line source).2 = (Feedback.drain (c.dispatcher.execute (c.parse line source)).2).2 := by
  unfold Console.runLine
  dsimp only
  cases (c.dispatcher.execute (c.parse line source)).1 <;> rfl

end

namespace Demo

/-! ## What handlers do -/

/-- The player apart from what was said. -/
def Player.silent (p : Player) : Player := { p with said := [] }

@[simp] theorem Player.silent_say (p : Player) (line : String) : (p.say line).silent = p.silent := rfl

/-- **What running a command can make of a player**, apart from what is said. -/
inductive Effect (p q : Player) : Prop where
  /-- Nothing. -/
  | none (h : q.silent = p.silent)
  /-- A switch that exists is set. -/
  | set (flag : String) (value : Bool) (hflag : flag ∈ flags) (h : q.silent = (p.setFlag flag value).silent)
  /-- The player, who has the permission, is moved. -/
  | move (target : Point) (hallowed : teleportPermission ≤ p.permission)
      (h : q.silent = { p with position := target }.silent)

/-- The step changes nothing, whether it fails or not. -/
def Reads {α : Type} (act : Action α) : Prop :=
  ∀ p, (∃ e, act.run p = .error e p) ∨ ∃ value, act.run p = .ok value p

/-- The step does not fail, and it changes nothing but what was said. -/
def Talks (act : Action Unit) : Prop := ∀ p, ∃ q, act.run p = .ok () q ∧ q.silent = p.silent

/-- The steps fail before they change anything, or they have one of these effects. -/
def Does (act : Action Unit) (p : Player) : Prop :=
  (∃ e, act.run p = .error e p) ∨ ∃ q, act.run p = .ok () q ∧ Effect p q

/-- The handler either fails and leaves the player as it was, or has one of these effects. -/
def Acts (h : Handler Player) (context : Context Player) : Prop :=
  (∃ e, h context = (.error e, context.source)) ∨ ∃ q, h context = (.ok (), q) ∧ Effect context.source q

theorem acts_handler {act : Context Player → Action Unit} {context : Context Player}
    (h : Does (act context) context.source) : Acts (handler act) context := by
  unfold Acts handler
  rcases h with ⟨e, hrun⟩ | ⟨q, hrun, heffect⟩
  · exact .inl ⟨e, by rw [hrun]⟩
  · exact .inr ⟨q, by rw [hrun], heffect⟩

/-! ### Steps -/

/-- A step that fails keeps the later ones from being taken, and what was changed stays so. -/
theorem run_bind {α β : Type} (first : Action α) (next : α → Action β) (p : Player) :
    (first >>= next).run p = match first.run p with
      | .ok value q => (next value).run q
      | .error e q => .error e q := by
  show EStateM.bind first next p = _
  unfold EStateM.bind EStateM.run
  cases first p <;> rfl

theorem reads_get : Reads get := fun p => .inr ⟨p, rfl⟩

theorem reads_ask (context : Context Player) (type : ValueType) (name : String) : Reads (ask context type name) := by
  intro p
  unfold ask
  cases context.argument type name with
  | error e => exact .inl ⟨e, rfl⟩
  | ok value => exact .inr ⟨value, rfl⟩

theorem reads_switchValue (context : Context Player) (flag : String) : Reads (switchValue context flag) := by
  unfold switchValue
  split
  · exact reads_ask context .bool "value"
  · exact fun p => .inr ⟨_, rfl⟩

/-- **Reading before writing keeps failures harmless**: a step that changes nothing may come in front. -/
theorem does_bind {α : Type} {first : Action α} {next : α → Action Unit} {p : Player} (hfirst : Reads first)
    (h : ∀ value, Does (next value) p) : Does (first >>= next) p := by
  unfold Does
  rw [run_bind]
  rcases hfirst p with ⟨e, hrun⟩ | ⟨value, hrun⟩
  · rw [hrun]
    exact .inl ⟨e, rfl⟩
  · rw [hrun]
    exact h value

theorem talks_say (line : String) : Talks (say line) := fun p => ⟨p.say line, rfl, Player.silent_say p line⟩

/-- Talking in a loop is talking. -/
theorem talks_forM {α : Type} {act : α → Action Unit} (h : ∀ x, Talks (act x)) (xs : List α) :
    Talks (forM xs act) := by
  induction xs with
  | nil => exact fun p => ⟨p, rfl, rfl⟩
  | cons x xs ih =>
    intro p
    obtain ⟨q, hx, hsilent⟩ := h x p
    obtain ⟨r, hxs, hsilent'⟩ := ih q
    refine ⟨r, ?_, hsilent'.trans hsilent⟩
    rw [List.forM_cons, run_bind, hx]
    exact hxs

theorem Talks.does {act : Action Unit} (h : Talks act) (p : Player) : Does act p := by
  obtain ⟨q, hrun, hsilent⟩ := h p
  exact .inr ⟨q, hrun, .none hsilent⟩

theorem does_refuse (reason : String) (p : Player) : Does (refuse reason) p := .inl ⟨_, rfl⟩

/-! ### Handlers -/

section

variable (context : Context Player)

theorem acts_echo : Acts echo context :=
  acts_handler (does_bind (reads_ask context _ _) fun message => (talks_say message).does _)

theorem acts_addNumbers : Acts addNumbers context :=
  acts_handler (does_bind (reads_ask context _ _) fun _ => does_bind (reads_ask context _ _) fun _ =>
    (talks_say _).does _)

theorem acts_speak : Acts speak context :=
  acts_handler (does_bind (reads_ask context _ _) fun _ => does_bind reads_get fun _ => (talks_say _).does _)

theorem acts_help (topics : List Topic) : Acts (help topics) context := by
  have hprint : ∀ topic : Topic, Talks topic.print := fun topic => talks_forM talks_say topic.text
  refine acts_handler (does_bind reads_get fun player => ?_)
  dsimp only
  split
  · exact (talks_forM hprint _).does _
  · refine does_bind (reads_ask context _ _) fun name => ?_
    split
    · next topic _ => exact (hprint topic).does _
    · exact does_refuse _ _

/-- The flag is checked before the switch is set. -/
theorem acts_toggle : Acts toggle context := by
  refine acts_handler (does_bind (reads_ask context _ _) fun flag => ?_)
  split
  · exact does_refuse _ _
  · next hflag =>
    have hknown : flag ∈ flags := not_not.mp hflag
    refine does_bind (reads_switchValue context flag) fun value => ?_
    exact .inr ⟨_, rfl, .set flag value hknown (Player.silent_say _ _)⟩

theorem acts_teleport (h : teleportPermission ≤ context.source.permission) : Acts teleport context := by
  refine acts_handler (does_bind (reads_ask context _ _) fun destination => does_bind reads_get fun player => ?_)
  exact .inr ⟨_, rfl, .move _ h (Player.silent_say _ _)⟩

end

/-! ## Which handlers there are -/

/-- Every handler of the grammar acts, that of the one restricted command for players with the permission only. -/
theorem acts_of_mem_entries (topics : List Topic) :
    ∀ e ∈ Declaration.entriesAll [] (commands topics), ∀ h, e.handler = some h →
      (∀ context, Acts h context) ∨ (["teleport"] <+: e.path ∧ h = teleport) := by
  -- The entries are a fixed list, and each that has a handler falls under one of the lemmas above.
  simp [commands, Declaration.followedBy, Declaration.literal, Declaration.argument, Declaration.runs,
    Declaration.offers, Declaration.requires, Declaration.entriesAll, Declaration.entries, Entry.path,
    Label.name, acts_echo, acts_addNumbers, acts_speak, acts_help, acts_toggle]

/-- The word of the restricted command asks for the permission. -/
theorem exists_first?_teleport (topics : List Topic) :
    ∃ first, Entry.first? (Declaration.entriesAll [] (commands topics)) ["teleport"] = some first ∧
      ∀ p, first.requirement p ↔ teleportPermission ≤ p.permission :=
  ⟨_, rfl, fun _ => decide_eq_true_iff⟩

/-! ## One line -/

/-- A line that was read is refused or run, and its handler does no more than it may. -/
theorem execute_cases (settings : Dispatch.Settings) (s : Scanner) (player : Player) :
    let d := dispatcher settings
    (∃ e, d.execute (d.parseFrom s player) = (.error e, player)) ∨
      ∃ q, d.execute (d.parseFrom s player) = (.ok (), q) ∧ Effect player q := by
  intro d
  have hsource := d.source_parseFrom s player
  have hcontext : ((d.parseFrom s player).trail.build (d.parseFrom s player).input).source = player :=
    ((d.parseFrom s player).trail.source_mapHandler _).trans hsource
  have hrecords : d.tree.Records (Declaration.entriesAll [] (commands topics)) :=
    Dispatcher.records_registerAll settings (commands topics)
  unfold Dispatcher.execute
  cases hhandler : d.handlerOf (d.parseFrom s player) with
  | error e => exact .inl ⟨e, by rw [hsource]⟩
  | ok h =>
    obtain ⟨e, he, hentry, hrequired⟩ := Dispatcher.exists_entry_of_handlerOf hrecords hhandler
    have hacts : Acts h ((d.parseFrom s player).trail.build (d.parseFrom s player).input) := by
      rcases acts_of_mem_entries topics e he h hentry with hacts | ⟨hpath, rfl⟩
      · exact hacts _
      · -- Teleporting stands below a word that asks for the permission.
        obtain ⟨first, hfirst, hrequirement⟩ := exists_first?_teleport topics
        have hallowed := (hrequirement player).mp (hrequired _ hpath first hfirst)
        exact acts_teleport _ (by rw [hcontext]; exact hallowed)
    rw [Acts, hcontext] at hacts
    exact hacts

theorem Effect.silent {p q : Player} (h : Effect p q) : Effect p q.silent := by
  cases h with
  | none h => exact .none h
  | set flag value hflag h => exact .set flag value hflag h
  | move target hallowed h => exact .move target hallowed h

/-- **What a line can do.** It fails and changes nothing but what was said, or it has one of the effects. -/
theorem runLine_cases (settings : Dispatch.Settings) (look : Console.Settings) (line : String) (player : Player) :
    let r := Console.runLine ⟨dispatcher settings, look⟩ line player
    (r.1.isSuccess = false ∧ r.2.silent = player.silent) ∨ (r.1.isSuccess = true ∧ Effect player r.2) := by
  intro r
  let c : Console Player := ⟨dispatcher settings, look⟩
  have hsuccess : r.1.isSuccess = (c.dispatcher.execute (c.parse line player)).1.isOk := c.isSuccess_runLine line player
  have hafter : r.2 = (c.dispatcher.execute (c.parse line player)).2.silent := c.source_runLine line player
  rcases execute_cases settings (Scanner.ofString (c.command line)) player with ⟨e, hexecute⟩ | ⟨q, hexecute, heffect⟩
  · have hexecute : c.dispatcher.execute (c.parse line player) = (.error e, player) := hexecute
    rw [hexecute] at hsuccess hafter
    exact .inl ⟨hsuccess, by rw [hafter]; rfl⟩
  · have hexecute : c.dispatcher.execute (c.parse line player) = (.ok (), q) := hexecute
    rw [hexecute] at hsuccess hafter
    exact .inr ⟨hsuccess, hafter ▸ heffect.silent⟩

/-! ## Whole sessions -/

/-- **What a session keeps**, since it started. -/
structure Sound (start p : Player) : Prop where
  /-- The player is the same one. -/
  name_eq : p.name = start.name
  /-- With the same permission. -/
  permission_eq : p.permission = start.permission
  /-- Only switches that exist were set. -/
  known : ∀ flag ∈ p.flags.map Prod.fst, flag ∈ flags
  /-- Each has one value. -/
  nodup : (p.flags.map Prod.fst).Nodup
  /-- Without the permission the player has not moved. -/
  unmoved : start.permission < teleportPermission → p.position = start.position

theorem sound_start {start : Player} (h : start.flags = []) : Sound start start where
  name_eq := rfl
  permission_eq := rfl
  known := by simp [h]
  nodup := by simp [h]
  unmoved := fun _ => rfl

variable {start p q : Player}

/-- What was said does not matter. -/
theorem Sound.of_silent_eq (h : Sound start p) (heq : q.silent = p.silent) : Sound start q := by
  cases p
  cases q
  simp only [Player.silent, Player.mk.injEq] at heq
  obtain ⟨rfl, rfl, rfl, rfl, _⟩ := heq
  exact ⟨h.name_eq, h.permission_eq, h.known, h.nodup, h.unmoved⟩

theorem Sound.setFlag (h : Sound start p) {flag : String} (hflag : flag ∈ flags) (value : Bool) :
    Sound start (p.setFlag flag value) where
  name_eq := h.name_eq
  permission_eq := h.permission_eq
  known := by
    intro name hname
    rcases List.mem_cons.mp hname with rfl | hmem
    · exact hflag
    · exact h.known name (List.map_subset _ (List.filter_subset_self _) hmem)
  nodup := by
    rw [Player.setFlag, List.map_cons, List.nodup_cons]
    exact ⟨by simp, h.nodup.sublist (List.filter_sublist.map _)⟩
  unmoved := h.unmoved

theorem Sound.move (h : Sound start p) (hallowed : teleportPermission ≤ p.permission) (target : Point) :
    Sound start { p with position := target } where
  name_eq := h.name_eq
  permission_eq := h.permission_eq
  known := h.known
  nodup := h.nodup
  unmoved := by
    intro hlacking
    have hpermission := h.permission_eq
    omega

/-- **Step.** Every effect keeps it. -/
theorem Sound.effect (h : Sound start p) (heffect : Effect p q) : Sound start q := by
  cases heffect with
  | none heq => exact h.of_silent_eq heq
  | set flag value hflag heq => exact (h.setFlag hflag value).of_silent_eq heq
  | move target hallowed heq => exact (h.move hallowed target).of_silent_eq heq

/-- **Run.** So do all lines of a session. -/
theorem Sound.runLines (h : Sound start p) (settings : Dispatch.Settings) (look : Console.Settings)
    (lines : List String) : Sound start (Console.runLines ⟨dispatcher settings, look⟩ p lines).2 := by
  induction lines generalizing p with
  | nil => exact h
  | cons line lines ih =>
    refine ih (p := (Console.runLine ⟨dispatcher settings, look⟩ line p).2) ?_
    rcases runLine_cases settings look line p with ⟨_, heq⟩ | ⟨_, heffect⟩
    · exact h.of_silent_eq heq
    · exact h.effect heffect

/-- **Sessions are safe.** A player who starts without switches types any lines, under any settings. Then the keys of
    the switches are among those that exist, each once; a further line that fails leaves the position and the switches
    exactly as they were; and without the permission to teleport the player still stands where the session
    started. Name and permission never change. -/
theorem sessions_are_safe (settings : Dispatch.Settings) (look : Console.Settings) (start : Player)
    (hstart : start.flags = []) (lines : List String) :
    let c : Console Player := ⟨dispatcher settings, look⟩
    let player := (c.runLines start lines).2
    (∀ flag ∈ player.flags.map Prod.fst, flag ∈ flags) ∧ (player.flags.map Prod.fst).Nodup ∧
    (∀ line, (c.runLine line player).1.isSuccess = false →
      (c.runLine line player).2.position = player.position ∧ (c.runLine line player).2.flags = player.flags) ∧
    (start.permission < teleportPermission → player.position = start.position) ∧
    player.name = start.name ∧ player.permission = start.permission := by
  intro c player
  have hsound : Sound start player := (sound_start hstart).runLines settings look lines
  refine ⟨hsound.known, hsound.nodup, ?_, hsound.unmoved, hsound.name_eq, hsound.permission_eq⟩
  intro line hfailed
  rcases runLine_cases settings look line player with ⟨_, heq⟩ | ⟨hsucceeded, _⟩
  · exact ⟨(congrArg Player.position heq :), (congrArg Player.flags heq :)⟩
  · rw [hfailed] at hsucceeded
    cases hsucceeded

/-- A player without the permission sets a switch and tries to teleport: the second line fails, and the player stays. -/
theorem sessions_are_safe_unpermitted :
    let c : Console Player := ⟨dispatcher {}, {}⟩
    let player := (c.runLines {} ["/toggle god_mode"]).2
    ({} : Player).flags = [] ∧ ({} : Player).permission < teleportPermission ∧
      player.flags = [("god_mode", true)] ∧ player.position = ({} : Player).position ∧
      (c.runLine "/teleport 0 0" player).1.isSuccess = false ∧
      (c.runLine "/teleport 0 0" player).2.flags = player.flags := by
  have hlacking : ({} : Player).permission < teleportPermission := by decide
  have hsafe := sessions_are_safe {} {} {} rfl ["/toggle god_mode"]
  simp only at hsafe ⊢
  obtain ⟨_, _, hfails, hstays, _⟩ := hsafe
  have hfailed : (Console.runLine ⟨dispatcher {}, {}⟩ "/teleport 0 0"
      (Console.runLines ⟨dispatcher {}, {}⟩ {} ["/toggle god_mode"]).2).1.isSuccess = false := by decide +kernel
  exact ⟨trivial, hlacking, by decide +kernel, hstays hlacking, hfailed, (hfails "/teleport 0 0" hfailed).2⟩

end Demo

end CommandGrammar
