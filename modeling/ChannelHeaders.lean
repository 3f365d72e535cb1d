import ChannelHeaders.Publishing.Store
import ChannelHeaders.Publishing.Operations
import ChannelHeaders.Specification.Loading
import ChannelHeaders.Specification.Writing
import ChannelHeaders.Proofs.Collections
import ChannelHeaders.Proofs.ResolvedHeaders
import ChannelHeaders.Proofs.DocumentShape
import ChannelHeaders.Proofs.DocumentContents
import ChannelHeaders.Proofs.Publishing
import ChannelHeaders.Proofs.WrittenDocuments
import ChannelHeaders.Proofs.HeaderDependence
import ChannelHeaders.Proofs.StoreHistory
import ChannelHeaders.Proofs.UnknownFields
import ChannelHeaders.Proofs.NodeKinds
import ChannelHeaders.Proofs.TagsAndNulls
import ChannelHeaders.Proofs.ReorderedTrees
import ChannelHeaders.Proofs.EntryOrder
import ChannelHeaders.Proofs.SpelledTokens
import ChannelHeaders.Proofs.SpelledValues
import ChannelHeaders.Proofs.HeaderTexts
import ChannelHeaders.Proofs.VerbatimTemplates
import ChannelHeaders.Proofs.TemplateClasses
import ChannelHeaders.Proofs.OperationEffects
import ChannelHeaders.Proofs.EventLog
import ChannelHeaders.Proofs.FreshIdentifiers
import ChannelHeaders.Threads
import ChannelHeaders.Proofs.TimestampOrder
import ChannelHeaders.Proofs.JsonConversions
import ChannelHeaders.Proofs.BuiltFields
import ChannelHeaders.Proofs.UndeclaredFields
import ChannelHeaders.Proofs.HeaderWrites
import ChannelHeaders.Proofs.CollectedTemplates
import ChannelHeaders.Proofs.DocumentSources
import ChannelHeaders.Proofs.RoundingIntervals
import ChannelHeaders.Proofs.ShortestDecimals
