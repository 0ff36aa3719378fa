import Tapestry.Program.Batch
import Tapestry.Proofs.Handles
import Tapestry.Proofs.Saving
import Tapestry.Proofs.Uniform

/-!
# Where a batch writes

The registry of a batch has a `save` that puts relative path names behind the name of a directory.
The text is not looked at any further, so a path name with enough dots leads out of the directory
again. One whose dots never lead above its start keeps everything that is stored for it inside.

## Key results

- `StoredFor.inside`: what is stored for a path name that stays lies inside the directory
- `evaluate_stores_inside`: what an evaluation stores belongs to calls of `save`, and lies inside
  where their path names stay
- `evaluate_stores_outside`: dots lead out of the directory
-/

namespace Tapestry

open PathName

namespace Workspace

/-- Whether an entry lies inside a directory: it is below the location that the path name of the
    directory leads to, or it is this directory or another one that its path name leads through. -/
inductive Inside (w : Workspace) (directory : PathName) : Location × Entry → Prop
  | below {d names e} (h : w.follow (w.startOf directory) directory.names = .ok d)
      (hne : names ≠ []) : Inside w directory (d ++ names, e)
  | through {ss l} (hss : ss <+: directory.names)
      (h : w.follow (w.startOf directory) ss = .ok l) : Inside w directory (l, .directory)

variable {w w' : Workspace} {directory path : PathName} {put : Location × Entry}

/-- What is inside stays inside. -/
theorem Inside.of_fills {puts : List (Location × Entry)} (h : w.Inside directory put)
    (hfills : w.Fills puts w') : w'.Inside directory put := by
  cases h with
  | below h hne => exact .below (hfills.startOf_eq directory ▸ hfills.follow h) hne
  | through hss h => exact .through hss (hfills.startOf_eq directory ▸ hfills.follow h)

/-- What is below the location of a directory is inside, and so is the directory itself. -/
private theorem Inside.of_location {d l : Location} {e : Entry}
    (h : w.follow (w.startOf directory) directory.names = .ok d) (hd : d <+: l)
    (he : l = d → e = .directory) : w.Inside directory (l, e) := by
  obtain ⟨names, rfl⟩ := hd
  by_cases hnames : names = []
  · rw [hnames, List.append_nil] at he ⊢
    rw [he rfl]
    exact .through (List.prefix_refl _) h
  · exact .below h hnames

/-- What is stored for a path name that stays lies inside the directory in front of it. -/
theorem StoredFor.inside (h : w.StoredFor (directory.join path) put)
    (hrelative : path.isAbsolute = false) (hstays : path.stays = true) :
    w.Inside directory put := by
  have hnames := names_join (a := directory) hrelative
  have habsolute := isAbsolute_join (a := directory) hrelative
  have hbelow {d l : Location} {ss : List String} (hss : ss <+: path.names)
      (hfollow : w.follow d ss = .ok l) : d <+: l := by
    have hfrom : w.follow (d ++ []) ss = .ok l := by rwa [List.append_nil]
    have hfirst : staysBelow ([] : Location).length ss = true := staysBelow_of_prefix hss hstays
    exact prefix_of_follow hfirst hfrom
  cases h with
  | @above l h =>
    obtain ⟨a, habove, htext, hlocate⟩ := h
    have hfollow := follow_names hlocate
    have hstart : w.startOf a = w.startOf directory := by
      rw [startOf, startOf, habove.isAbsolute_eq htext, habsolute]
    have hfirst := hnames ▸ habove.names_prefix
    rw [hstart] at hfollow
    -- The names above the file end inside those of the directory, or go on behind them.
    rcases List.prefix_or_prefix_of_prefix hfirst (List.prefix_append _ _) with hss | ⟨ss, hss⟩
    · exact .through hss hfollow
    · rw [← hss] at hfirst hfollow
      obtain ⟨d, hd, hrest⟩ := follow_append.1 hfollow
      exact .of_location hd (hbelow ((List.prefix_append_right_inj _).1 hfirst) hrest) fun _ => rfl
  | @file l content h =>
    obtain ⟨hlocate, hentry⟩ := find_eq_ok.1 h
    have hfollow := follow_names hlocate
    rw [startOf, habsolute, ← startOf, hnames] at hfollow
    obtain ⟨d, hd, hrest⟩ := follow_append.1 hfollow
    refine .of_location hd (hbelow (List.prefix_refl _) hrest) fun hl => ?_
    -- The file would be where a directory has to be for the path name to lead to it.
    have hdirectory : w.entryAt l = some .directory := by
      cases hpath : path.names with
      | nil =>
        have htexts := text_eq_of_names hrelative hpath
        rcases join_of_text_eq (a := directory) htexts with htext | hslash
        · rw [locate_of_text_eq htext] at hlocate
          cases hlocate
        · exact entryAt_of_endsWithSlash hlocate hslash
      | cons s ss =>
        rw [hpath] at hrest
        rw [hl]
        exact (follow_cons hrest).1
    rw [hentry] at hdirectory
    cases hdirectory

end Workspace

/-! ## Evaluations -/

/-- A handler that leaves the files as they are. -/
def Handler.KeepsFiles (handler : Handler) : Prop :=
  ∀ call files, Command.stateAfter (handler call files) = files

/-- A registry in which `save` puts relative path names below a directory, and no other command
    touches the files. -/
structure Registry.SavesBelow (registry : Registry) (directory : PathName) : Prop where
  get?_save : registry.get? "save" = some (Command.save (some directory))
  keepsFiles : ∀ name handler, registry.get? name = some handler → name ≠ "save" →
    handler.KeepsFiles

/-- Whether a call is one of `save` that an entry may have been stored by: its path name, if it is
    relative and stays below its start, leaves the entry inside the directory. -/
def Invocation.Stores (call : Invocation) (directory : PathName) (w : Workspace)
    (put : Location × Entry) : Prop :=
  call.name = "save" ∧ ∃ text, (Arguments.ofList call.args).positional? 0 = some text ∧
    ((⟨text⟩ : PathName).isAbsolute = false → (⟨text⟩ : PathName).stays = true →
      w.Inside directory put)

section Evaluation

variable {registry : Registry} {directory : PathName} {c c' : Context}

/-- What a call may store where it is made does not change while other entries are added. -/
theorem Invocation.Stores.of_fills {call : Invocation} {w w' : Workspace} {put : Location × Entry}
    {puts : List (Location × Entry)} (h : call.Stores directory w put)
    (hfills : w.Fills puts w') : call.Stores directory w' put := by
  obtain ⟨hname, text, htext, hinside⟩ := h
  exact ⟨hname, text, htext, fun hrelative hstays => (hinside hrelative hstays).of_fills hfills⟩

/-- What a call of a handler stores. -/
theorem Registry.SavesBelow.exists_fills (hregistry : registry.SavesBelow directory)
    {call : Invocation} {handler : Handler} (hget : registry.get? call.name = some handler)
    (handles : HandleTable) (files : Workspace) :
    let after := Command.stateAfter (handler ⟨call.args, call.input, handles⟩ files)
    ∃ puts, files.Fills puts after ∧ ∀ put ∈ puts, call.Stores directory after put := by
  intro after
  -- Only `save` may change files, and it is the one that stores below the directory.
  by_cases hname : call.name = "save"
  · rw [hname, hregistry.get?_save] at hget
    cases hget
    obtain ⟨puts, hfills, hputs⟩ := Command.exists_fills_save (some directory)
      ⟨call.args, call.input, handles⟩ files
    refine ⟨puts, hfills, fun put hput => ?_⟩
    obtain ⟨text, htext, hstored⟩ := hputs put hput
    exact ⟨hname, text, htext, fun hrelative hstays => hstored.inside hrelative hstays⟩
  · have hsame : after = files := hregistry.keepsFiles call.name handler hget hname _ files
    exact ⟨[], hsame ▸ .nil, nofun⟩

/-- What an event stores belongs to its call. -/
theorem Step.exists_fills (hregistry : registry.SavesBelow directory) {event : Event}
    (h : Step registry c event c') :
    ∃ puts, c.files.Fills puts c'.files ∧
      ∀ put ∈ puts, ∃ call ∈ event.call?, call.Stores directory c'.files put := by
  cases h with
  | registered | refused => exact ⟨[], .nil, nofun⟩
  | returned hget hrun | failed hget hrun =>
    obtain ⟨puts, hfills, hputs⟩ := hregistry.exists_fills hget c.handles c.files
    rw [hrun] at hfills hputs
    exact ⟨puts, hfills, fun put hput => ⟨_, rfl, hputs put hput⟩⟩

/-- What is stored along a trace belongs to its calls. -/
theorem Trace.exists_fills (hregistry : registry.SavesBelow directory) {events : List Event}
    (h : Trace registry c events c') :
    ∃ puts, c.files.Fills puts c'.files ∧
      ∀ put ∈ puts, ∃ call ∈ Event.calls events, call.Stores directory c'.files put := by
  -- The induction is on the events, and what a step stores is still stored behind the later ones.
  induction h with
  | nil => exact ⟨[], .nil, nofun⟩
  | @cons c c' c'' event events hstep _ ih =>
    obtain ⟨puts, hfills, hputs⟩ := hstep.exists_fills hregistry
    obtain ⟨more, hfills', hmore⟩ := ih
    refine ⟨puts ++ more, hfills.append hfills', fun put hput => ?_⟩
    rcases List.mem_append.1 hput with hput | hput
    · obtain ⟨call, hcall, hstores⟩ := hputs put hput
      exact ⟨call, List.mem_filterMap.2 ⟨event, List.mem_cons_self, hcall⟩,
        hstores.of_fills hfills'⟩
    · obtain ⟨call, hcall, hstores⟩ := hmore put hput
      obtain ⟨later, hlater, heq⟩ := List.mem_filterMap.1 hcall
      exact ⟨call, List.mem_filterMap.2 ⟨later, List.mem_cons_of_mem _ hlater, heq⟩, hstores⟩

end Evaluation

/-- The registry of a batch is of this kind. -/
theorem Program.savesBelow_batchRegistry (directory : PathName) :
    (batchRegistry directory).SavesBelow directory where
  get?_save := Registry.get?_insert _ _ _ _
  keepsFiles name handler hget hname call files := by
    rw [batchRegistry, Registry.get?_insert, if_neg hname] at hget
    obtain ⟨f, rfl, -⟩ := Registry.uniform_builtins hget hname
    rw [Handler.ofFunction]
    cases f call <;> rfl

/-- Let `save` put relative path names below a directory, and let no other command touch the files.
    Whatever an expression, its input and the context are, and whether or not the evaluation
    succeeds, all that changes are the entries that calls of `save` store. When the path name of
    such a call is relative, and its dots never lead above where it starts, the entry is below the
    directory, or is the directory itself or one that its path name leads through. -/
theorem evaluate_stores_inside {registry : Registry} {directory : PathName}
    (hregistry : registry.SavesBelow directory) (e : Expr) (input : Option Image) (c : Context) :
    let after := contextAfter (e.evaluate registry input) c
    ∃ calls puts, after.invocations = c.invocations ++ calls ∧
      c.files.Fills puts after.files ∧
      (∀ l, (∀ put ∈ puts, put.1 ≠ l) → after.files.entryAt l = c.files.entryAt l) ∧
      ∀ put ∈ puts, ∃ call ∈ calls, call.Stores directory after.files put := by
  intro after
  obtain ⟨events, htrace⟩ := (e.performs registry input).exists_trace c
  obtain ⟨puts, hfills, hputs⟩ := htrace.exists_fills hregistry
  exact ⟨Event.calls events, puts, htrace.invocations_eq, hfills, fun l => hfills.entryAt_eq, hputs⟩

/-- Dots that go down before they go up. -/
theorem evaluate_stores_inside_dots :
    let after := contextAfter ((Expr.command "save" [.literal "a/../b.png"]).evaluate
      (Program.batchRegistry ⟨"dist"⟩) (some (.blank 1 1))) (.fresh ⟨[], []⟩)
    (Program.batchRegistry ⟨"dist"⟩).SavesBelow ⟨"dist"⟩ ∧
      ∃ puts, Workspace.Fills ⟨[], []⟩ puts after.files ∧
        ∀ put ∈ puts, after.files.Inside ⟨"dist"⟩ put := by
  intro after
  have hregistry := Program.savesBelow_batchRegistry ⟨"dist"⟩
  obtain ⟨calls, puts, hcalls, hfills, -, hputs⟩ := evaluate_stores_inside hregistry
    (.command "save" [.literal "a/../b.png"]) (some (.blank 1 1)) (.fresh ⟨[], []⟩)
  -- The evaluation makes the one call that the text asks for.
  have hcall : calls = [⟨"save", ["a/../b.png"], some (.blank 1 1)⟩] :=
    ((List.nil_append calls).symm.trans hcalls.symm).trans rfl
  refine ⟨hregistry, puts, hfills, fun put hput => ?_⟩
  obtain ⟨call, hmem, -, text, htext, hinside⟩ := hputs put hput
  rw [hcall] at hmem
  rw [List.mem_singleton.1 hmem] at htext
  -- Its path name has dots, which lead up and down again and never above the directory.
  have hpath : (Arguments.ofList ["a/../b.png"]).positional? 0 = some "a/../b.png" := by
    decide +kernel
  obtain rfl : text = "a/../b.png" := Option.some.inj (htext.symm.trans hpath)
  exact hinside (by decide +kernel) (by decide +kernel)

/-- Dots that go up at once lead out of the directory: with a relative path name a file is made that
    was not there and is not inside. -/
theorem evaluate_stores_outside :
    let after := contextAfter ((Expr.command "save" [.literal "../up.png"]).evaluate
      (Program.batchRegistry ⟨"dist"⟩) (some (.blank 1 1))) (.fresh ⟨[], []⟩)
    (Program.batchRegistry ⟨"dist"⟩).SavesBelow ⟨"dist"⟩ ∧
      (⟨"../up.png"⟩ : PathName).isAbsolute = false ∧
      (⟨[], []⟩ : Workspace).entryAt ["up.png"] = none ∧
      after.files.entryAt ["up.png"] = some (.file (.picture (.blank 1 1))) ∧
      ¬ after.files.Inside ⟨"dist"⟩ (["up.png"], .file (.picture (.blank 1 1))) := by
  intro after
  have hdist : after.files.follow (after.files.startOf ⟨"dist"⟩) (names ⟨"dist"⟩) =
      .ok ["dist"] := by decide +kernel
  -- The file was not there before, and is written beside the directory.
  refine ⟨Program.savesBelow_batchRegistry _, by decide +kernel, rfl, by decide +kernel, ?_⟩
  generalize hput : (["up.png"], Entry.file (.picture (.blank 1 1))) = put
  -- It is below the directory only if the names of its location begin with that directory.
  rintro (⟨h, -⟩ | -)
  · rw [hdist] at h
    cases h
    simp at hput
  · cases hput

end Tapestry
