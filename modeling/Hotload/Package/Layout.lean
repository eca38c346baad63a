/-!
What a package is made of: a manifest, a directory of sources and the source of its entry point.
-/
namespace Hotload.Package

def manifestName : String := "mun.toml"

def sourceDirectory : String := "src"

def entryName : String := "mod.mun"

end Hotload.Package
