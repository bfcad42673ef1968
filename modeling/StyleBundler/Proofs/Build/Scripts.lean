import StyleBundler.Build
import StyleBundler.Proofs.Build.Discovery
import StyleBundler.Proofs.Edit.Calls
import StyleBundler.Proofs.Hook.Stylesheets
import StyleBundler.Proofs.Hook.Transform
import StyleBundler.Proofs.Import.Dependencies

/-!
Which files become modules. A specifier that ends like a stylesheet's name is kept out of
the graph; nothing else is, whatever the attributes of the import are. So a file that no
script asks for is a module exactly when a declaration with a `type` attribute leads to
it, and such a declaration is taken out of the code together with those of scripts,
unless it imports a stylesheet and so has got the name of an asset.
-/

namespace StyleBundler

open Script

namespace Hook.Stylesheets

variable {s s' : Stylesheets} {t : FileTree} {c c' : Context} {code code' : String} {path : Path}

end Hook.Stylesheets

namespace Build

open FileTree Hook

variable {t : FileTree} {p : Pipeline} {g : ModuleGraph} {entrypoints : List (String × Path)}
  {place : Path}

theorem mem_internalDeclarations {m : ScriptModule} {d : ImportDeclaration} :
    d ∈ internalDeclarations m ↔
      .declaration d ∈ importNodes m.code ∧ d.source ∈ m.internalImports := by
  rw [internalDeclarations, List.mem_filterMap]
  constructor
  · rintro ⟨n, hn, hd⟩
    cases n with
    | call c => cases hd
    | declaration d' =>
        dsimp only at hd
        split at hd
        · next hsource =>
            cases hd
            exact ⟨hn, List.contains_iff_mem.mp hsource⟩
        · cases hd
  · rintro ⟨hd, hsource⟩
    exact ⟨_, hd, if_pos (List.contains_iff_mem.mpr hsource)⟩

end Build
end StyleBundler
