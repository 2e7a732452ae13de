import PackageLoader.Main
import PackageLoader.Proofs.Linking
import PackageLoader.Proofs.ImportEdges
import PackageLoader.Proofs.Resolution
import PackageLoader.Proofs.WireIdentity
import PackageLoader.Proofs.PathNormalForm
import PackageLoader.Proofs.LinkFreeDisk
import PackageLoader.Proofs.WrittenFiles
import PackageLoader.Proofs.OverlayOnDisk
import PackageLoader.Proofs.Agreement
import PackageLoader.Proofs.OverlayWriting
import PackageLoader.Proofs.Separation
import PackageLoader.Proofs.ExternalTests
import PackageLoader.Proofs.HollowPackages
import PackageLoader.Proofs.HeaderGrammar
import PackageLoader.Proofs.HeaderReading
import PackageLoader.Proofs.TokenLayout
import PackageLoader.Proofs.ResponseReading
import PackageLoader.Proofs.LaterDiscovery
import PackageLoader.Proofs.PatternOrder
import PackageLoader.Proofs.RedundantPatterns
import PackageLoader.Proofs.FatalFaults
import PackageLoader.Proofs.LinkClosure
import PackageLoader.Proofs.Spellings
import PackageLoader.Proofs.TextCutting
import PackageLoader.Proofs.GuessRuns
import PackageLoader.Proofs.DescriptorWriting
import PackageLoader.Proofs.OverlayDecoding
import PackageLoader.Proofs.StatementEnds
import PackageLoader.Proofs.ClauseAlone
import PackageLoader.Proofs.FileSums
import PackageLoader.Proofs.ConsistentClauses
import PackageLoader.Proofs.TokenPrinting
import PackageLoader.Proofs.HeaderWriting
import PackageLoader.Proofs.LineEndings
import PackageLoader.Proofs.DirectiveRules
import PackageLoader.Proofs.VoteTallies
import PackageLoader.Proofs.DirectoryWalk
import PackageLoader.Proofs.LinkedRoots
import PackageLoader.Proofs.LibraryInjection
import PackageLoader.Proofs.BuiltinPath
import PackageLoader.Proofs.PathSpellings
import PackageLoader.Proofs.TestOverrides
import PackageLoader.Proofs.DirectoryPatterns
import PackageLoader.Proofs.NormalResolution
import PackageLoader.Proofs.FileQueries
import PackageLoader.Proofs.PathParents
import PackageLoader.Proofs.OverlayListings
import PackageLoader.Proofs.NestedOverlays
import PackageLoader.Proofs.SourceListings
import PackageLoader.Proofs.UnreadOverlays
import PackageLoader.Proofs.LineColumns
import PackageLoader.Proofs.StableSplit
import PackageLoader.Proofs.QuotedLiterals
import PackageLoader.Proofs.DirectoryFlags
