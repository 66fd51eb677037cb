import ScriptCheck.Main
import ScriptCheck.Proofs.TypeArguments
import ScriptCheck.Proofs.Termination
import ScriptCheck.Proofs.Widening
import ScriptCheck.Proofs.ParameterScopes
import ScriptCheck.Proofs.Encapsulation
import ScriptCheck.Proofs.MirroredRules
import ScriptCheck.Proofs.Distilling
import ScriptCheck.Proofs.NilRemoval
import ScriptCheck.Proofs.Reports
import ScriptCheck.Proofs.MethodTypes
import ScriptCheck.Proofs.AliasParameters
import ScriptCheck.Proofs.PipedCalls
import ScriptCheck.Proofs.ModuleScope
import ScriptCheck.Proofs.UnionLaws
import ScriptCheck.Proofs.CallResults
import ScriptCheck.Proofs.LoneFaults
import ScriptCheck.Proofs.UnknownNames
import ScriptCheck.Proofs.KeptNodes
import ScriptCheck.Proofs.OpenEnds
import ScriptCheck.Proofs.Locations
import ScriptCheck.Proofs.Speculation
