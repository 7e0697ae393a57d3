import Polyglot.Proofs.Publication
import Polyglot.Server.Basic

/-!
What a server publishes for a text depends on the text alone. A file that was opened, edited and
closed before, with others around it, differs from a new one in the numbers of its documents and in
what is drawn; but both are kept, and an update of a kept file with a text ends in a tree that shows
the text, or fails for every kept file at that address.
-/
namespace Polyglot

namespace OpenFile

open Aggregator

section

variable {href language : String} {next : Nat} {f : OpenFile}

theorem Kept.mono (h : f.Kept href language next) {later : Nat} (hle : next ≤ later) :
    f.Kept href language later :=
  { h with session := { h.session with root :=
      { h.session.root with steady := h.session.root.steady.mono hle } } }

theorem kept_create (uri : Url) (next later : Nat) :
    (create uri (ServerConfig.ofSettings {}) next).Kept uri.href (hostLanguage uri).1 later where
  editor_eq := rfl
  session :=
    { context_eq := rfl
      attempts := show (ServerConfig.ofSettings {}).policy.maxAttempts ≠ 0 by decide
      rebuilding := rfl
      locked := rfl
      levels := show 2 ≤ Document.usualLevels by decide
      root :=
        { steady := Document.steady_leaf rfl
          language_eq := rfl
          idPath_eq := rfl
          path_href := rfl
          uri_href := rfl
          live := rfl } }
  aligned := aligned_empty
  targets _ h := by simp [create] at h

/-- Notices of closed documents only take markers away. -/
theorem Kept.forgetClosed (h : f.Kept href language next) :
    f.forgetClosed.Kept href language next := by
  have hshown : f.forgetClosed.shown.Aligned ∧ ∀ target ∈ f.forgetClosed.shown.markers.map (·.1),
      language = Cel.language ∨ target ≠ href := by
    refine List.foldlRecOn (motive := fun a : Aggregator MarkerStore => a.Aligned ∧
      ∀ target ∈ a.markers.map (·.1), language = Cel.language ∨ target ≠ href) _ _
      ⟨h.aligned, h.targets⟩ ?_
    intro a ha notice _
    split
    · refine ⟨ha.1.forget _, fun target htarget => ?_⟩
      exact ha.2 target ((List.filter_sublist.map _).subset htarget)
    · exact ha
  exact ⟨h.editor_eq, { h.session with }, hshown.1, hshown.2⟩

/-- Diagnostics as they are published when the tree of a file shows a text. -/
def Answer (check : Cel.Checker) (href language : String) (text : Text)
    (diagnostics : List (Diagnostic .editor)) : Prop :=
  ∃ root cs, ∃ store : MarkerStore, (∃ next, root.IsRoot href language next) ∧
    Document.Shows href language text root cs ∧
    (store.entries.map (·.2)).Perm (markersFor check root (root :: cs)) ∧
    diagnostics = store.published href

/-- A text has one answer. -/
theorem Answer.unique {check : Cel.Checker} {text : Text}
    {diagnostics others : List (Diagnostic .editor)}
    (h : Answer check href language text diagnostics)
    (h' : Answer check href language text others) :
    diagnostics = others := by
  obtain ⟨root, cs, store, ⟨next, hroot⟩, hshows, hdrawn, rfl⟩ := h
  obtain ⟨root', cs', store', ⟨next', hroot'⟩, hshows', hdrawn', rfl⟩ := h'
  have hseverity : ∀ m ∈ store.entries.map (·.2), m.severity = 1 := fun m hm =>
    severity_of_mem_markersFor (hdrawn.subset hm)
  refine MarkerStore.published_eq_of_perm hseverity (hdrawn.trans ?_) href
  rw [markersFor_eq hshows hroot hshows' hroot' check]
  exact hdrawn'.symm

theorem Kept.update (h : f.Kept href language next)
    (hread : language = "proto" → Document.Readable href ∨ Document.Unreadable href) (text : Text)
    (version : Int) :
    ∃ f' n' result, f.update text version next = (f', n', result) ∧ f'.Kept href language n' ∧
      next ≤ n' ∧
      ((Document.Buildable href language text ∧ result = .ok () ∧
          ∃ cs, Document.Shows href language text f'.session.root cs) ∨
        (¬Document.Buildable href language text ∧ ∃ e, result = .error e)) := by
  obtain ⟨session, n', result, heq, hrest, hle, hresult⟩ := h.session.update hread href text
  rw [← h.editor_eq] at heq
  have hupdate : f.update text version next =
      (({ f with version := version, session := session } : OpenFile).forgetClosed,
        n', result) := by
    rw [OpenFile.update, heq]
  refine ⟨_, n', result, hupdate, ?_, hle, hresult⟩
  exact Kept.forgetClosed ⟨h.editor_eq, hrest, h.aligned, h.targets⟩

end

end OpenFile

namespace Server

open OpenFile

/-- A server with the usual settings whose files are kept. -/
structure Sane (s : Server) : Prop where
  phase_eq : s.phase = .initialized
  config_eq : s.configOf = ServerConfig.ofSettings {}
  files : ∀ entry ∈ s.store.files, ∃ u : Url, u.Settled ∧ u.href = entry.1 ∧
    entry.2.Kept u.href (hostLanguage u).1 s.next

theorem Sane.get? {s : Server} (h : s.Sane) {uri : Url} (huri : uri.Settled) {file : OpenFile}
    (hfile : s.store.get? uri = some file) : file.Kept uri.href (hostLanguage uri).1 s.next := by
  obtain ⟨u, hu, hhref, hkept⟩ := h.files _ (Aggregator.mem_of_lookup hfile)
  rw [hhref, hostLanguage_eq_of_href_eq hu huri hhref] at hkept
  exact hkept

/-- The file at an address is kept, whether it was open or not. -/
theorem Sane.openFile {s : Server} (h : s.Sane) {uri : Url} (huri : uri.Settled) :
    ∃ store file n, s.store.openFile uri s.configOf s.next = (store, file, n) ∧
      file.Kept uri.href (hostLanguage uri).1 n ∧ s.next ≤ n ∧
      ∀ entry ∈ store.files, entry ∈ s.store.files ∨ entry.1 = uri.href := by
  unfold Store.openFile
  cases hfile : s.store.get? uri with
  | some file =>
    exact ⟨_, _, _, rfl, h.get? huri hfile, Nat.le_refl _, fun _ hentry => Or.inl hentry⟩
  | none =>
    refine ⟨_, _, _, rfl, ?_, Nat.le_succ _, ?_⟩
    · rw [h.config_eq]
      exact kept_create uri _ _
    · intro entry hentry
      rcases List.mem_append.mp hentry with hold | hnew
      · exact Or.inl (List.mem_filter.mp hold).1
      · exact Or.inr (congrArg Prod.fst (List.mem_singleton.mp hnew))

/-- What is sent for a text. -/
def Sends (check : Cel.Checker) (f : FileText) (sent : List Sent) : Prop :=
  (¬Document.Buildable f.uri.href (hostLanguage f.uri).1 f.text ∧ sent = []) ∨
    (Document.Buildable f.uri.href (hostLanguage f.uri).1 f.text ∧
      ∃ diagnostics, Answer check f.uri.href (hostLanguage f.uri).1 f.text diagnostics ∧
        sent = [publish f.uri diagnostics (some f.version)])

/-- The checker of a server with the usual settings. -/
def World.usualCheck (world : World) : Cel.Checker :=
  world.check (ServerConfig.ofSettings {}).environment

theorem readable_or_unreadable {u : Url} (hu : u.Settled) (hproto : (hostLanguage u).1 = "proto") :
    Document.Readable u.href ∨ Document.Unreadable u.href := by
  rcases parse_celEnding hu hproto with ⟨e, he⟩ | hread
  · exact Or.inr fun number => ⟨e, he number⟩
  · exact Or.inl hread

theorem Sane.change {s : Server} (h : s.Sane) {world : World}
    (hdistinct : ∀ source, Aggregator.Distinct (Cel.analyzeSource world.usualCheck source))
    {f : FileText} (hf : f.uri.Settled) :
    (change world f s).1.Sane ∧ Sends world.usualCheck f (change world f s).2 := by
  obtain ⟨store, file, n, hopen, hkept, hle, hfiles⟩ := h.openFile hf
  obtain ⟨file', n', result, hupdate, hkept', hle', hresult⟩ :=
    hkept.update (readable_or_unreadable hf) f.text f.version
  have hput : ∀ last : OpenFile, last.Kept f.uri.href (hostLanguage f.uri).1 n' →
      Sane { s with config := some s.configOf, next := n', store := store.put f.uri last } := by
    intro last hlast
    refine ⟨h.phase_eq, h.config_eq, fun entry hentry => ?_⟩
    rcases List.mem_append.mp hentry with hold | hnew
    · obtain ⟨hmem, hne⟩ := List.mem_filter.mp hold
      obtain ⟨u, hu, hhref, hbefore⟩ := h.files entry
        ((hfiles entry hmem).resolve_right (by simpa using hne))
      exact ⟨u, hu, hhref, hbefore.mono (Nat.le_trans hle hle')⟩
    · obtain rfl := List.mem_singleton.mp hnew
      exact ⟨f.uri, hf, rfl, hlast⟩
  have hcheck : world.check s.configOf.environment = world.usualCheck := by
    rw [h.config_eq]
    rfl
  rcases hresult with ⟨hbuildable, rfl, cs, hshows⟩ | ⟨hnot, e, rfl⟩
  · rw [← hkept'.editor_eq] at hshows
    obtain ⟨shown, hrefresh, hlast, hdrawn⟩ := hkept'.refresh hbuildable hshows hdistinct
    simp only [Server.change, hopen, hupdate, hcheck, hrefresh]
    refine ⟨hput _ hlast, Or.inr ⟨hbuildable, _, ?_, rfl⟩⟩
    rw [hkept'.editor_eq] at hshows ⊢
    exact ⟨_, cs, _, ⟨n', hkept'.session.root⟩, hshows, hdrawn, rfl⟩
  · simp only [Server.change, hopen, hupdate]
    exact ⟨hput file' hkept', Or.inl ⟨hnot, rfl⟩⟩

theorem Sane.close {s : Server} (h : s.Sane) (uri : Url) : (close uri s).1.Sane :=
  ⟨h.phase_eq, h.config_eq, fun entry hentry => h.files entry (List.mem_filter.mp hentry).1⟩

/-! Messages. -/

theorem settled_of_url? {v : Value} {u : Url} (h : url? v = some u) : u.Settled := by
  obtain ⟨text, _, hparse⟩ := Option.bind_eq_some_iff.mp h
  cases hresult : Url.parse text with
  | error e =>
    rw [hresult] at hparse
    cases hparse
  | ok w =>
    rw [hresult] at hparse
    cases hparse
    exact Url.settled_of_parse hresult

theorem settled_of_readDidOpen {v : Value} {f : FileText} (h : readDidOpen v = some f) :
    f.uri.Settled := by
  simp only [readDidOpen, Value.Record.required, bind, Option.bind_eq_some_iff] at h
  obtain ⟨_, _, _, _, _, _, uri, ⟨_, _, huri⟩, _, _, _, _, _, _, hf⟩ := h
  cases hf
  exact settled_of_url? huri

theorem settled_of_readDidChange {v : Value} {f : FileText} (h : readDidChange v = some (some f)) :
    f.uri.Settled := by
  simp only [readDidChange, Value.Record.required, bind, Option.bind_eq_some_iff] at h
  obtain ⟨_, _, ⟨uri, version⟩, ⟨_, _, _, _, _, ⟨_, _, huri⟩, _, _, hpair⟩, changes, _, hf⟩ := h
  cases hpair
  obtain ⟨text, _, rfl⟩ := Option.map_eq_some_iff.mp (Option.some.inj hf)
  exact settled_of_url? huri

/-- A notification that opens a file with a text. -/
def Message.Opens (m : Message) (f : FileText) : Prop :=
  m.method = "textDocument/didOpen" ∧ m.isRequest = false ∧ m.params.bind readDidOpen = some f

/-- A notification that brings the text of a file, which need not be open. -/
def Message.Brings (m : Message) (f : FileText) : Prop :=
  m.Opens f ∨ m.method = "textDocument/didChange" ∧ m.isRequest = false ∧
    m.params.bind readDidChange = some (some f)

/-- The messages that files are opened, changed and closed with. -/
def fileMethods : List String :=
  ["textDocument/didOpen", "textDocument/didChange", "textDocument/didClose"]

theorem Message.Brings.settled {m : Message} {f : FileText} (h : m.Brings f) : f.uri.Settled := by
  rcases h with ⟨_, _, hread⟩ | ⟨_, _, hread⟩
  · obtain ⟨v, _, hv⟩ := Option.bind_eq_some_iff.mp hread
    exact settled_of_readDidOpen hv
  · obtain ⟨v, _, hv⟩ := Option.bind_eq_some_iff.mp hread
    exact settled_of_readDidChange hv

theorem handle_of_brings {s : Server} (hphase : s.phase = .initialized) (world : World)
    {m : Message} {f : FileText} (h : m.Brings f) :
    s.handle world m = ((change world f s).1, { sent := (change world f s).2 }) := by
  rcases h with ⟨hmethod, hnote, hread⟩ | ⟨hmethod, hnote, hread⟩
  · simp [Server.handle, notified, hphase, hmethod, hnote, hread]
  · simp [Server.handle, notified, hphase, hmethod, hnote, hread]

theorem Sane.notified {α : Type} {read : Value → Option α} {act : α → Server → Server × List Sent}
    {s : Server} (h : s.Sane) (hact : ∀ v a, read v = some a → (act a s).1.Sane) (m : Message) :
    (notified read act m s).1.Sane := by
  unfold Server.notified
  split
  · exact h
  · split
    · exact h
    · cases hread : m.params.bind read with
      | none => exact h
      | some a =>
        obtain ⟨v, _, hv⟩ := Option.bind_eq_some_iff.mp hread
        exact hact v a hv

theorem Sane.handle {s : Server} (h : s.Sane) {world : World}
    (hdistinct : ∀ source, Aggregator.Distinct (Cel.analyzeSource world.usualCheck source))
    {m : Message} (hm : m.method ∈ fileMethods) : (s.handle world m).1.Sane := by
  unfold Server.handle
  rw [if_neg (by rw [h.phase_eq]; decide)]
  simp only [fileMethods, List.mem_cons, List.not_mem_nil, or_false] at hm
  rcases hm with hm | hm | hm
  · simp only [hm]
    exact h.notified (fun v f hv => (h.change hdistinct (settled_of_readDidOpen hv)).1) m
  · simp only [hm]
    refine h.notified (fun v f hv => ?_) m
    cases f with
    | none => exact h
    | some f => exact (h.change hdistinct (settled_of_readDidChange hv)).1
  · simp only [hm]
    exact h.notified (fun v uri _ => h.close uri) m

/-- A server after some messages. -/
def after (world : World) (history : List Message) (s : Server) : Server :=
  history.foldl (fun s m => (s.handle world m).1) s

theorem Sane.after {s : Server} (h : s.Sane) {world : World}
    (hdistinct : ∀ source, Aggregator.Distinct (Cel.analyzeSource world.usualCheck source))
    {history : List Message} (hhistory : ∀ m ∈ history, m.method ∈ fileMethods) :
    (s.after world history).Sane := by
  induction history generalizing s with
  | nil => exact h
  | cons m rest ih =>
    exact ih (h.handle hdistinct (hhistory m List.mem_cons_self))
      (fun m' hm' => hhistory m' (List.mem_cons_of_mem m hm'))

/-- A server with the usual settings that has no file open. -/
structure Started (s : Server) : Prop where
  phase_eq : s.phase = .initialized
  config_eq : s.configOf = ServerConfig.ofSettings {}
  files_eq : s.store.files = []

theorem Started.sane {s : Server} (h : s.Started) : s.Sane :=
  ⟨h.phase_eq, h.config_eq, by simp [h.files_eq]⟩

end Server

/-- A checker never says the same twice at one position of a source. -/
def Cel.SaysOnce (check : Cel.Checker) : Prop :=
  ∀ source : Text, ((check source).syntactic ++ (check source).semantic.getD []).Pairwise fun x y =>
    ¬((LineIndex.ofText source).position x.start =
        ((LineIndex.ofText source).position y.start : Pos .buffer) ∧
      x.message = y.message)

theorem Cel.SaysOnce.distinct {check : Cel.Checker} (h : SaysOnce check) (source : Text) :
    Aggregator.Distinct (analyzeSource check source) := by
  unfold analyzeSource
  split
  · exact List.Pairwise.nil
  · exact List.pairwise_map.mpr (h source)

/-- Whatever files were opened, changed and closed before, the diagnostics that are published for a
text are those that a server publishes that is told nothing but to open the file with that text. A
server publishes nothing for texts that cannot be taken apart, and for those with pieces in a file
whose address leaves no addresses for them. -/
theorem Server.published_eq_fresh {world : World} (hchecker : Cel.SaysOnce world.usualCheck)
    {s fresh : Server} (hs : s.Started) (hfresh : fresh.Started) {history : List Message}
    (hhistory : ∀ m ∈ history, m.method ∈ fileMethods) {m opening : Message} {f g : FileText}
    (hm : m.Brings f) (hopening : opening.Opens g) (huri : g.uri = f.uri)
    (htext : g.text = f.text) :
    ∃ shown : Option (List (Diagnostic .editor)),
      ((s.after world history).handle world m).2.sent =
        (shown.map fun diagnostics => publish f.uri diagnostics (some f.version)).toList ∧
      (fresh.handle world opening).2.sent =
        (shown.map fun diagnostics => publish f.uri diagnostics (some g.version)).toList ∧
      (shown.isSome ↔ Document.Buildable f.uri.href (hostLanguage f.uri).1 f.text) := by
  have hdistinct := hchecker.distinct
  have hsane := hs.sane.after hdistinct hhistory
  have hsent := (hsane.change hdistinct hm.settled).2
  have hsent' := (hfresh.sane.change hdistinct (Message.Brings.settled (Or.inl hopening))).2
  rw [Server.handle_of_brings hsane.phase_eq world hm,
    Server.handle_of_brings hfresh.phase_eq world (Or.inl hopening)]
  rw [Server.Sends, huri, htext] at hsent'
  rcases hsent with ⟨hnot, hnone⟩ | ⟨hbuildable, shown, hanswer, hsome⟩
  · obtain ⟨_, hnone'⟩ := hsent'.resolve_right fun h => hnot h.1
    exact ⟨none, hnone, hnone', by simpa using hnot⟩
  · obtain ⟨_, shown', hanswer', hsome'⟩ := hsent'.resolve_left fun h => h.1 hbuildable
    rw [hanswer'.unique hanswer] at hsome'
    exact ⟨some shown, hsome, hsome', by simpa using hbuildable⟩

namespace Server

/-! A protobuf file that loses its rules and is given one again. -/

def ruleFile : Url := { scheme := "file", host := some "", path := "/a.proto" }

def ruleText : String := "(buf.validate.field).cel = \x7b expression: \"x\" \x7d"

def openedWith (version : Int) (text : String) : Message where
  method := "textDocument/didOpen"
  params := some (.table [("textDocument", .table [("uri", .string "file:///a.proto"),
    ("languageId", .string "proto"), ("version", .int version), ("text", .string text)])])
  isRequest := false

def changedTo (version : Int) (text : String) : Message where
  method := "textDocument/didChange"
  params := some (.table [
    ("textDocument", .table [("uri", .string "file:///a.proto"), ("version", .int version)]),
    ("contentChanges", .array [.table [("text", .string text)]])])
  isRequest := false

def ruleHistory : List Message :=
  [openedWith 1 (ruleText ++ "\n" ++ ruleText), changedTo 2 "", changedTo 3 ruleText,
    changedTo 4 "",
    ⟨"textDocument/didClose",
      some (.table [("textDocument", .table [("uri", .string "file:///a.proto")])]), false⟩,
    openedWith 1 (ruleText ++ "\n" ++ ruleText)]

/-- A checker that is content with no source. -/
def fussyWorld : World where
  check _ _ := { syntactic := [{ start := 0, stop := 1, message := "bad" }] }
  tree := {}

/-- The messages of the diagnostics that are published. -/
def messagesOf (sent : Sent) : Option (List String) := do
  let r ← sent.params.record? false []
  r.required "diagnostics" (Value.list? fun v => do
    let d ← v.record? false []
    d.required "message" Value.string?)

theorem url?_ruleFile : url? (.string "file:///a.proto") = some ruleFile := by decide +kernel

/-- The server complains about the rule that is left of two, and about nothing else. -/
theorem published_eq_fresh_of_shrunk_file :
    ((Server.after fussyWorld ruleHistory { phase := .initialized }).handle fussyWorld
      (changedTo 2 ruleText)).2.sent.map messagesOf = [some ["bad (cel)"]] := by
  have hchecker : Cel.SaysOnce fussyWorld.usualCheck := fun _ => List.pairwise_singleton _ _
  have hstarted : Started { phase := .initialized } := ⟨rfl, rfl, rfl⟩
  have hhistory : ∀ m ∈ ruleHistory, m.method ∈ fileMethods := by decide
  have hchanged : (changedTo 2 ruleText).Brings ⟨ruleFile, 2, ruleText.toList⟩ := by
    refine Or.inr ⟨rfl, rfl, ?_⟩
    simp [changedTo, readDidChange, readChange, Value.record?, Value.Record.required,
      Value.Record.optional, Value.Record.get?, Value.list?, Value.string?, url?_ruleFile, int32?,
      Value.intIn?]
  have hopened : (openedWith 2 ruleText).Opens ⟨ruleFile, 2, ruleText.toList⟩ := by
    refine ⟨rfl, rfl, ?_⟩
    simp [openedWith, readDidOpen, Value.record?, Value.Record.required, Value.Record.get?,
      Value.string?, url?_ruleFile, int32?, Value.intIn?]
  obtain ⟨shown, hsent, hfresh, _⟩ :=
    published_eq_fresh hchecker hstarted hstarted hhistory hchanged hopened rfl rfl
  rw [hsent.trans hfresh.symm]
  decide +kernel

end Server

end Polyglot
