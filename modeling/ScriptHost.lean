import ScriptHost.Session
import ScriptHost.Proofs.Act.License
import ScriptHost.Proofs.Act.Outcome
import ScriptHost.Proofs.Act.Alike
import ScriptHost.Proofs.Act.Composed
import ScriptHost.Proofs.Act.Crossing
import ScriptHost.Proofs.Act.Operand
import ScriptHost.Proofs.Act.Program
import ScriptHost.Proofs.Act.Effects
import ScriptHost.Proofs.Coroutine
import ScriptHost.Proofs.Carrier
import ScriptHost.Proofs.ErrorChain
import ScriptHost.Proofs.Liveness
import ScriptHost.Proofs.Proxies.Entry
import ScriptHost.Proofs.Proxies.Place
import ScriptHost.Proofs.Proxies.OneProxy
import ScriptHost.Proofs.BuiltClass
import ScriptHost.Proofs.Hiding
import ScriptHost.Proofs.DeniedMember
import ScriptHost.Proofs.EntryPoints
import ScriptHost.Proofs.TypedBoundary
import ScriptHost.Proofs.Act.Known
import ScriptHost.Proofs.Conversion.Represents
import ScriptHost.Proofs.Conversion.RoundTrip
import ScriptHost.Proofs.Conversion.Faithful
import ScriptHost.Proofs.Conversion.Revival
import ScriptHost.Proofs.Number.ExactValue
import ScriptHost.Proofs.Conversion.Settled
import ScriptHost.Proofs.Conversion.Stable
import ScriptHost.Proofs.Tables.Identity
import ScriptHost.Proofs.Tables.FiniteMap
import ScriptHost.Proofs.Tables.Calls
import ScriptHost.Proofs.Tables.RawEquality
import ScriptHost.Proofs.CaughtPayload
import ScriptHost.Proofs.Confinement.Exposed
import ScriptHost.Proofs.Confinement.Keeps
import ScriptHost.Proofs.Confinement.Crossing
import ScriptHost.Proofs.Confinement.Program
import ScriptHost.Proofs.Confinement.OneBinding
import ScriptHost.Proofs.Instants.Basic
import ScriptHost.Proofs.Resolution
import ScriptHost.Proofs.CallStack
import ScriptHost.Proofs.Ownership
import ScriptHost.Proofs.Afterlife.Safe
import ScriptHost.Proofs.Afterlife.Since
import ScriptHost.Proofs.Afterlife.Sparing
import ScriptHost.Proofs.Afterlife.Crossing
import ScriptHost.Proofs.Afterlife.Operand
import ScriptHost.Proofs.Afterlife.Action
import ScriptHost.Proofs.Afterlife.Program
import ScriptHost.Proofs.Afterlife.Onward
import ScriptHost.Proofs.Instants.Faithful
import ScriptHost.Proofs.Afterlife.Refusal
import ScriptHost.Proofs.Afterlife.Disposal
import ScriptHost.Proofs.Afterlife.Bound
import ScriptHost.Proofs.Afterlife.ProxyLife
import ScriptHost.Proofs.Act.Member
import ScriptHost.Proofs.Conversion.Started
import ScriptHost.Proofs.OneMember
import ScriptHost.Proofs.FailedWrite
import ScriptHost.Proofs.Dispatch
import ScriptHost.Proofs.SelfArgument
import ScriptHost.Proofs.Conversion.Unsigned
import ScriptHost.Proofs.Conversion.Nesting
import ScriptHost.Proofs.Conversion.OrderedWrites
import ScriptHost.Proofs.Proxies.Equality
import ScriptHost.Proofs.Conversion.Transparent
import ScriptHost.Proofs.Instants.Ordered
import ScriptHost.Proofs.Instants.Adequacy
import ScriptHost.Proofs.CoroutineLife
import ScriptHost.Proofs.Conversion.ArrayElements
import ScriptHost.Proofs.Registration
import ScriptHost.Proofs.RuleSets
import ScriptHost.Proofs.Instants.Regular
import ScriptHost.Proofs.Instants.Lending
import ScriptHost.Proofs.Instants.Outstanding
import ScriptHost.Proofs.Instants.Belonging
import ScriptHost.Proofs.Conversion.Observed
import ScriptHost.Proofs.Receivers
import ScriptHost.Proofs.BorrowDiscipline
import ScriptHost.Proofs.Conversion.NaturalType
import ScriptHost.Proofs.Proxies.CacheSize
