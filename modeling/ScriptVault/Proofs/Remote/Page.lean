import ScriptVault.Proofs.Host.Chain

/-!
# Page — what a page of the network becomes

What comes of loading an address is told by the network, the settings, the compiler and the modules that the host lends:
neither by what is kept nor by the order in which addresses are loaded.
-/

namespace ScriptVault

/-- Settings that make the same of pages: calls go to the same name, the same modules are left to the host, and sources
have the same root. -/
structure Settings.Agree (s s' : Settings) : Prop where
  requireName : s'.requireName = s.requireName
  exposeInternalModules : s'.exposeInternalModules = s.exposeInternalModules
  sourceRoot : s'.sourceRoot = s.sourceRoot

theorem Settings.Agree.refl (s : Settings) : s.Agree s := ⟨rfl, rfl, rfl⟩

theorem Settings.Agree.trans {s s' s'' : Settings} (a : s.Agree s') (b : s'.Agree s'') : s.Agree s'' :=
  ⟨b.requireName.trans a.requireName, b.exposeInternalModules.trans a.exposeInternalModules,
    b.sourceRoot.trans a.sourceRoot⟩

/-- The state of an address for which this came of loading it. -/
def RemoteState.ofResult : Except Failure RemoteModule → RemoteState
  | .ok module => .ready module
  | .error failure => .failed failure

namespace Host

variable {h h' : Host}

/-! ### What a page becomes -/

/-- The code of a page before its calls are replaced: compiled, where that is possible. -/
def pageCode (h : Host) (href body : String) : String :=
  match h.chain.made .module ⟨body, some href, none⟩ (some remoteHeader) with
  | .ok (some code) => code
  | _ => body

/-- The code of a page with its calls replaced. -/
def pageRewritten (h : Host) (href body : String) : Except Failure Script.Rewritten :=
  Script.rewrite href (h.pageCode href body).toList (Script.loaderExpression h.settings.requireName).toList
    (h.remoteTarget h.settings.exposeInternalModules href)

/-- The module that a page becomes under the number of a load; a page whose calls cannot be found keeps them. -/
def pageModule (h : Host) (href body : String) (token : Nat) : RemoteModule :=
  let code := match h.pageRewritten href body with
    | .ok rewritten => rewritten.code
    | .error _ => h.pageCode href body
  ⟨token, code, Script.withSourceUrl code href h.settings.sourceRoot⟩

/-- What comes of loading an address under a number. -/
def loadedPage (h : Host) (href : String) (token : Nat) : Except Failure RemoteModule :=
  (h.network.fetch href).1.map fun body => h.pageModule href body token

/-- The addresses that the module of an address was rewritten to require. -/
def pageRequires (h : Host) (href : String) : List String :=
  match (h.network.fetch href).1 with
  | .error _ => []
  | .ok body =>
    match h.pageRewritten href body with
    | .ok rewritten => rewritten.requires
    | .error _ => []

/-- The address that a specifier means in the end, after known redirects and those that the network tells. -/
def finalAddress? (h : Host) (id : String) (cwd : Option String) : Option String :=
  (Url.normalize? id cwd).map fun href =>
    (h.remote.redirects.at? href).getD ((h.network.destination href).toOption.getD href)

/-! ### What it depends on -/

/-- What decides beside the settings what pages become is the same: the modules that are lent, and the compiler. -/
structure SameTools (h h' : Host) : Prop where
  natives : h'.natives.modules = h.natives.modules
  compiler : h'.workshop.compiler = h.workshop.compiler

namespace SameTools

theorem trans {h'' : Host} (a : SameTools h h') (b : SameTools h' h'') : SameTools h h'' :=
  ⟨b.natives.trans a.natives, b.compiler.trans a.compiler⟩

theorem pageCode (a : SameTools h h') (href body : String) : h'.pageCode href body = h.pageCode href body := by
  unfold Host.pageCode Host.chain Chain.made
  rw [a.compiler]

theorem remoteTarget (a : SameTools h h') (lent : Bool) (base : String) :
    h'.remoteTarget lent base = h.remoteTarget lent base := by
  funext specifier
  unfold Host.remoteTarget Natives.has
  rw [a.natives]

theorem pageRewritten (a : SameTools h h') (hs : h.settings.Agree h'.settings) (href body : String) :
    h'.pageRewritten href body = h.pageRewritten href body := by
  unfold Host.pageRewritten
  rw [a.pageCode, hs.requireName, hs.exposeInternalModules, a.remoteTarget]

theorem pageModule (a : SameTools h h') (hs : h.settings.Agree h'.settings) (href body : String) (token : Nat) :
    h'.pageModule href body token = h.pageModule href body token := by
  unfold Host.pageModule
  rw [a.pageRewritten hs, a.pageCode, hs.sourceRoot]

end SameTools

/-- All that decides what pages become is the same. -/
structure Akin (h h' : Host) : Prop where
  settings : h'.settings = h.settings
  natives : h'.natives = h.natives
  compiler : h'.workshop.compiler = h.workshop.compiler

namespace Akin

theorem refl (h : Host) : Akin h h := ⟨rfl, rfl, rfl⟩

theorem trans {h'' : Host} (a : Akin h h') (b : Akin h' h'') : Akin h h'' :=
  ⟨b.settings.trans a.settings, b.natives.trans a.natives, b.compiler.trans a.compiler⟩

theorem sameTools (a : Akin h h') : SameTools h h' := ⟨congrArg _ a.natives, a.compiler⟩

theorem agree (a : Akin h h') : h.settings.Agree h'.settings := a.settings ▸ .refl _

theorem remoteTarget (a : Akin h h') (lent : Bool) (base : String) :
    h'.remoteTarget lent base = h.remoteTarget lent base := a.sameTools.remoteTarget lent base

theorem pageRewritten (a : Akin h h') (href body : String) :
    h'.pageRewritten href body = h.pageRewritten href body := a.sameTools.pageRewritten a.agree href body

theorem pageModule (a : Akin h h') (href body : String) (token : Nat) :
    h'.pageModule href body token = h.pageModule href body token := a.sameTools.pageModule a.agree href body token

end Akin

theorem fetch_congr (hn : h'.network = { h.network with requests := h'.network.requests }) (href : String) :
    (h'.network.fetch href).1 = (h.network.fetch href).1 := by
  rw [hn]
  unfold Network.fetch
  split <;> rfl

theorem loadedPage_congr (a : SameTools h h') (hs : h.settings.Agree h'.settings)
    (hn : h'.network = { h.network with requests := h'.network.requests }) (href : String) (token : Nat) :
    h'.loadedPage href token = h.loadedPage href token := by
  unfold loadedPage
  rw [fetch_congr hn]
  exact congrArg (fun f => (h.network.fetch href).1.map f) (funext fun body => a.pageModule hs href body token)

theorem loadedPage_token {href : String} {token : Nat} {module : RemoteModule}
    (hm : h.loadedPage href token = .ok module) : module.token = token := by
  unfold loadedPage at hm
  cases hbody : (h.network.fetch href).1 with
  | error e => rw [hbody] at hm; cases hm
  | ok body => rw [hbody] at hm; cases hm; rfl

end Host

end ScriptVault
