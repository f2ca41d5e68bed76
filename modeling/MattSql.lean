import MattSql.Library.ByteSpanProofs
import MattSql.Library.LittleEndianProofs
import MattSql.Library.RunProofs
import MattSql.Library.LedgerProofs
import MattSql.Library.FallibleProofs
import MattSql.Library.FiniteMapProofs
import MattSql.Library.SweepProofs
import MattSql.Library.LocalityProofs
import MattSql.Library.WriteLogProofs
import MattSql.Library.SignedWordProofs
import MattSql.Library.FirstFitProofs
import MattSql.Library.SequentialLogicProofs
import MattSql.Library.ExtractionProofs
import MattSql.ValueProofs
import MattSql.CheckedArithmeticProofs
import MattSql.SchemaProofs
import MattSql.ByteIoProofs
import MattSql.TupleCodecProofs
import MattSql.SlottedPageProofs
import MattSql.CorruptPageProofs
import MattSql.PageHeapProofs
import MattSql.HeapInsertProofs
import MattSql.HeapCursorProofs
import MattSql.HeapSpaceProofs
import MattSql.LexerProofs
import MattSql.TilingProofs
import MattSql.SplitterProofs
import MattSql.LayoutProofs
import MattSql.ParserProofs
import MattSql.BoundExpressionProofs
import MattSql.BinderProofs
import MattSql.EvaluatorProofs
import MattSql.CatalogProofs
import MattSql.TableStorageProofs
import MattSql.PlannerProofs
import MattSql.OptimizerProofs
import MattSql.OptimizerNormalProofs
import MattSql.ExecutorProofs
import MattSql.RewriteProofs
import MattSql.InsertRowsProofs
import MattSql.EngineProofs
import MattSql.TypingProofs
import MattSql.EngineSafetyProofs
import MattSql.ReferenceProofs
import MattSql.NullProofs
import MattSql.ColumnNamesProofs
import MattSql.SelectLawsProofs
import MattSql.PrintProofs
import MattSql.PrecedenceProofs
import MattSql.LeftNotProofs
import MattSql.StatementPrintProofs
import MattSql.GrowthProofs
import MattSql.MeaningProofs
import MattSql.InsertionOrderProofs
import MattSql.StatementLogProofs
import MattSql.ParserImageProofs
import MattSql.ParserSafetyProofs
import MattSql.IntegerLiteralProofs
import MattSql.FoldedNamesProofs
import MattSql.RespellingProofs
import MattSql.CatalogInvariantProofs
import MattSql.CreateTableProofs
import MattSql.HostedCatalogProofs
import MattSql.PlatformRuntimeProofs
import MattSql.PageHandleProofs
import MattSql.BatchedIoProofs
import MattSql.BlockDeviceProofs
import MattSql.SingleIoProofs
import MattSql.RequestIdProofs
import MattSql.CAbiRuntimeProofs
import MattSql.LoopbackProofs
import MattSql.CAbiGuardProofs
import MattSql.CAbiConsumerProofs
import MattSql.HeapIdsProofs
import MattSql.PlanPointerProofs
import MattSql.PageNumberProofs
import MattSql.CommuteProofs
import MattSql.IsolationProofs
import MattSql.CommandLineProofs
import MattSql.ScriptProofs
import MattSql.MainProofs
