import Unroll.Proofs.Override
import Unroll.Proofs.Requests

/-!
# Lists of methods from every source

A variable, a document and a command line spell a list of methods in their own ways: names joined by
commas, an array of texts, one or more arguments. They are read by three different readers, which
guess numbers first, fold the case of all letters or only of those of ASCII, and trim blanks or do
not. On names in any case all of them give the same list, in order and with repeats, and none of
them mixes it with a list that was set before.
-/

namespace Unroll

open Config (Field)

theorem decode_methods_variable {names : List (String × Method)} (hne : names ≠ [])
    (h : ∀ p ∈ names, Text.Recased p.1 p.2.name) :
    Field.methods.decode
        (Setting.ofVariable Field.methods.key (",".intercalate (names.map Prod.fst))) =
      .ok (names.map Prod.snd) := by
  rw [Setting.ofVariable_recased hne h]
  exact Setting.toMethods_recased Setting.environmentOrigin Setting.environmentOrigin h

theorem decode_methods_array {names : List (String × Method)}
    (h : ∀ p ∈ names, Text.Recased p.1 p.2.name) (origin : Option String) :
    Field.methods.decode (Setting.ofToml origin (.arr (names.map fun p => .str p.1))) =
      .ok (names.map Prod.snd) := by
  rw [Setting.ofToml, Setting.ofItems_map]
  simp only [Setting.ofToml]
  exact Setting.toMethods_recased origin origin h

/-- **All sources read a list of methods alike.** Of names in any case, a variable that joins them
by commas sets the methods to those that they name, over any file and any list that it may set; an
array of them in a document does, if no variable sets the methods; and so does a command line that
gives them in one argument or cuts them into several ones. -/
theorem sources_agree_on_methods {names : List (String × Method)} (hne : names ≠ [])
    (hnames : ∀ p ∈ names, Text.Recased p.1 p.2.name) :
    (∀ {h : Host} {path : Option String} {document : Option Document}
        {rest : List (String × String)} {c : Config},
      h.document path = .ok document →
      Field.methods.InVariables (",".intercalate (names.map Prod.fst)) rest h.environment →
      Config.ReadsBut .methods document rest c →
      ∃ d, Config.load h path = .ok d ∧ d.run.methods = names.map Prod.snd ∧
        Config.KeepsBut .methods c d) ∧
    (∀ {h : Host} {path : Option String} {rest document : Document} {c : Config},
      h.document path = .ok (some document) →
      Field.methods.InDocument (.arr (names.map fun p => .str p.1)) rest document →
      (∀ x ∈ h.environment, Field.methods.SparedBy x) →
      Config.ReadsBut .methods (some rest) h.environment c →
      ∃ d, Config.load h path = .ok d ∧ d.run.methods = names.map Prod.snd ∧
        Config.KeepsBut .methods c d) ∧
    ∀ {r : CommandLine.Request} {words : List String}, r.methods.flatten = names →
      (∀ cut ∈ r.methods, cut ≠ []) →
      ({ r with methods := [] } : CommandLine.Request).Valid → r.Spelled words →
      ∃ line, CommandLine.parse words = .ok line ∧ line.methods = names.map Prod.snd ∧
        ∀ c, (line.apply c).run.methods = names.map Prod.snd := by
  have hmethods : names.map Prod.snd ≠ [] := mt List.map_eq_nil_iff.1 hne
  refine ⟨?_, ?_, ?_⟩
  · intro h path document rest c hdocument hin hrest
    exact Config.exists_load_variable hdocument hin hrest (decode_methods_variable hne hnames)
      hmethods
  · intro h path rest document c hdocument hin henvironment hrest
    exact Config.exists_load_entry hdocument hin henvironment hrest trivial
      (decode_methods_array hnames document.origin) hmethods
  · intro r words hflatten hcuts hothers hwords
    have hvalid : r.Valid := by
      refine ⟨?_, hothers.format, hothers.config⟩
      intro cut hcut
      refine ⟨hcuts cut hcut, ?_⟩
      intro p hp
      apply Method.parse_recased
      apply hnames
      rw [← hflatten]
      exact List.mem_flatten_of_mem hcut hp
    have hline : r.line.methods = names.map Prod.snd := by rw [CommandLine.Request.line, hflatten]
    refine ⟨r.line, hwords.parse hvalid, hline, ?_⟩
    intro c
    simp [CommandLine.apply, hline, hne]

/-- A variable over a file that sets another list, the file alone, and a command line. -/
theorem sources_agree_on_methods_mixed :
    let h : Host := Config.hostOfFile "c.toml" "[run]\nmethods = [\"Naive\"]\nn = 7\n"
    (∃ d, Config.load { h with environment := [("FIBSTACK_RUN__METHODS", "STACK,naive,Stack"),
        ("PATH", "/bin")] } (some "c.toml") = .ok d ∧ d.run.methods = [.stack, .naive, .stack]) ∧
    (∃ d, Config.load h (some "c.toml") = .ok d ∧ d.run.methods = [.naive]) ∧
    ∃ line, CommandLine.parse ["-mSTACK,naive", "9", "--method=Stack"] = .ok line ∧
      line.methods = [.stack, .naive, .stack] := by
  let methods : Toml.Pair := ⟨"methods", (tomlNames ["Naive"]).toList, .arr [.str "Naive"]⟩
  let n : Toml.Pair := ⟨"n", (toString 7).toList, .int 7⟩
  have htables : Toml.IsDocument [("run", [methods, n])] := by
    have hmethods : methods.IsWritten := by
      refine ⟨by decide, Toml.renders_names ?_, rfl⟩
      rw [List.forall_mem_singleton]
      decide
    have hn : n.IsWritten :=
      ⟨by decide, Toml.renders_toString (show 7 < SignedWord.bound by decide), rfl⟩
    refine ⟨?_, by decide, ?_, ?_⟩
    · rw [List.forall_mem_singleton]
      decide
    · rw [List.forall_mem_singleton, List.forall_mem_cons, List.forall_mem_singleton]
      exact ⟨hmethods, hn⟩
    · rw [List.forall_mem_singleton]
      decide
  have htext : "[run]\nmethods = [\"Naive\"]\nn = 7\n" =
      String.ofList (Toml.documentLines [("run", [methods, n])]) := by
    decide
  intro h
  obtain ⟨origin, hdocument⟩ := (Host.holds_hostOfFile [("FIBSTACK_RUN__METHODS",
    "STACK,naive,Stack"), ("PATH", "/bin")] _).document (htext ▸ htables.parse?)
  have hthree : ∀ p ∈ [("STACK", Method.stack), ("naive", .naive), ("Stack", .stack)],
      Text.Recased p.1 p.2.name := by
    decide
  have hone : ∀ p ∈ [("Naive", Method.naive)], Text.Recased p.1 p.2.name := by
    decide
  have hpath : Field.methods.SparedBy ("PATH", "/bin") := by
    intro key hkey
    have hnone : Setting.variableKey? "PATH" = none := by decide
    rw [hnone] at hkey
    cases hkey
  obtain ⟨hvariable, -, hline⟩ := sources_agree_on_methods (by decide) hthree
  obtain ⟨-, hentry, -⟩ := sources_agree_on_methods (by decide) hone
  refine ⟨?_, ?_, ?_⟩
  · have hrest : Config.ReadsBut .methods (some ⟨origin, [("run", .table
        [("methods", .arr [.str "Naive"]), ("n", .int 7)])]⟩) [("PATH", "/bin")]
        ⟨⟨7, [.naive], 1⟩, ⟨.text, 2⟩⟩ := by
      apply Config.ReadsBut.of_ofLayers
      rfl
    have hin : Field.methods.InVariables "STACK,naive,Stack" ([] ++ [("PATH", "/bin")])
        ([] ++ ("FIBSTACK_RUN__METHODS", "STACK,naive,Stack") :: [("PATH", "/bin")]) := by
      apply Config.Field.InVariables.mk
      rw [List.forall_mem_singleton]
      exact hpath
    obtain ⟨d, hd, hmethods, -⟩ := hvariable hdocument hin hrest
    exact ⟨d, hd, hmethods⟩
  · obtain ⟨origin', hdocument'⟩ := (Host.holds_hostOfFile [] _).document (htext ▸ htables.parse?)
    have hrest : Config.ReadsBut .methods
        (some ⟨origin', [] ++ ("run", .table ([] ++ [("n", .int 7)])) :: []⟩) []
        ⟨⟨7, [.naive, .stack], 1⟩, ⟨.text, 2⟩⟩ := by
      apply Config.ReadsBut.of_ofLayers
      rfl
    have hin : Field.methods.InDocument (.arr [.str "Naive"])
        ⟨origin', [] ++ ("run", .table ([] ++ [("n", .int 7)])) :: []⟩
        ⟨origin', [] ++ ("run", .table ([] ++ ("methods", .arr [.str "Naive"]) ::
          [("n", .int 7)])) :: []⟩ := by
      apply Config.Field.InDocument.mk
      · rw [List.forall_mem_singleton]
        decide
      · nofun
    obtain ⟨d, hd, hmethods, -⟩ := hentry hdocument' hin nofun hrest
    exact ⟨d, hd, hmethods⟩
  · let r : CommandLine.Request := {
      n := some 9
      methods := [[("STACK", .stack), ("naive", .naive)], [("Stack", .stack)]] }
    have hnine : Text.IsDecimal "9" 9 := ⟨by decide, List.all_eq_true.1 (by decide), by decide⟩
    have hcut := @CommandLine.Parameter.Spelled.shortJoined .method "STACK,naive" 'm' rfl
    have hlast := @CommandLine.Parameter.Spelled.longEquals .method "Stack" "method" rfl
    have hwords : r.Spelled ["-mSTACK,naive", "9", "--method=Stack"] := by
      refine ⟨[.methods [("STACK", .stack), ("naive", .naive)], .index 9,
        .methods [("Stack", .stack)]], _, ⟨rfl, rfl, rfl, rfl, rfl, rfl, rfl, rfl⟩,
        .cons hcut (.cons ⟨"9", hnine, rfl⟩ (.cons hlast .nil)), ?_⟩
      decide
    have hothers : ({ r with methods := [] } : CommandLine.Request).Valid := ⟨nofun, nofun, nofun⟩
    obtain ⟨line, hparse, hmethods, -⟩ := hline (r := r) rfl (by decide) hothers hwords
    exact ⟨line, hparse, hmethods⟩

end Unroll
